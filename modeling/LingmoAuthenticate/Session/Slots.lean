import LingmoAuthenticate.Session.CameraMoves
import LingmoAuthenticate.Session.FingerprintMoves

/-!
# The slots of the devices: `claimed`, `faceClaimed` and `irisClaimed`

The biometric transactions of all sessions, each taken apart into its steps, together with the three
variables that are to point at the one that has the device, and the three locks that are to protect
them. A start takes the lock of its kind, ends the transaction in the slot, and writes itself there;
a camera keeps the lock until its goroutine has returned. An `end` writes a slot without any lock.

* `SlotState.move` is one step of any transaction, of a thread that has a lock, or of an `end` that
  is about to return.
* `LockInv`: an attempt of a camera runs under the lock of its kind.
* `OwnerTracked`: while a transaction verifies, the slot of its kind points to it.
* `slots_track`: over every run, this holds and each `end` writes its own slot only, exactly where
  no slot is written over the head of its owner (`KeepsOwner`).
-/

namespace LingmoAuthenticate.Session

open Lib AuthCommon

/-- The kinds of transaction that have a slot. -/
inductive Biometric where
  | fingerprint
  | camera (c : CameraType)
  deriving DecidableEq, Repr

/-- A biometric transaction, with all that is going on in it. -/
inductive BioTx where
  | fingerprint (s : FingerprintSteps)
  | camera (c : CameraType) (s : CameraVerify c)

/-- A step of one. -/
inductive BioStep where
  | fingerprint (a : FingerprintStep)
  | camera (a : CameraVerifyStep)
  deriving DecidableEq, Repr

/-- The attempt has not closed `release`. -/
def CameraPhase.isOpen : CameraPhase → Bool
  | .left _ => false
  | _ => true

namespace BioTx

/-- Source: `fingerprint_tx.go`, `newFingerprintTx`, `face_tx.go`, `newFaceTx`, and `iris_tx.go`,
`newIrisTx`. -/
def new (k : Biometric) (lockState : LockState) : BioTx :=
  match k with
  | .fingerprint => .fingerprint (.new lockState)
  | .camera c => .camera c (.new c lockState)

/-- The kind whose slot the transaction takes. -/
def kind : BioTx → Biometric
  | .fingerprint _ => .fingerprint
  | .camera c _ => .camera c

/-- A step of the transaction on its own. -/
def move : BioTx → BioStep → Option BioTx
  | .fingerprint s, .fingerprint a => (s.move a).map .fingerprint
  | .camera c s, .camera a => (s.move a).map (.camera c)
  | .fingerprint _, .camera _ => none
  | .camera _ _, .fingerprint _ => none

/-- The step of `end` up to the receiving from `release`. -/
def endTx : BioTx → Option BioTx
  | .fingerprint s => s.endTx.map .fingerprint
  | .camera c s => s.endTx.map (.camera c)

/-- The transaction is marked, so that `end` returns at once. -/
def isEnded : BioTx → Bool
  | .fingerprint s => s.isEnded
  | .camera _ s => s.isEnded

/-- A call of `end` is under way, up to its last write. -/
def ending : BioTx → Bool
  | .fingerprint s => s.ending.isSome
  | .camera _ s => s.ending.isSome

/-- The slot that `end` clears in the end. That of an iris is the slot of the faces.
Source: `fingerprint_tx.go`, `FingerprintTx.end`, `face_tx.go`, `FaceTx.end`, and `iris_tx.go`,
`IrisTx.end`. -/
def endSlot : BioTx → CloseType → Option Biometric
  | .fingerprint _, .closeAllResource => some .fingerprint
  | .fingerprint _, .closeVerify => none
  | .camera _ _, _ => some (.camera .face)

/-- The daemon has panicked over a channel of the transaction. -/
def panicked : BioTx → Bool
  | .fingerprint s => s.panicked
  | .camera _ _ => false

/-- A call of `authenticate` waits for the lock. -/
def waits : BioTx → Bool
  | .fingerprint s => 0 < s.starts
  | .camera _ s => 0 < s.starts

/-- An attempt verifies: from when it has made its channels until it closes `release`. -/
def Verifies : BioTx → Prop
  | .fingerprint s => ∃ n, (s.phases n).holds = true
  | .camera _ s => s.phase.any CameraPhase.isOpen = true

end BioTx

/-! ## The threads -/

/-- Where the thread is that has a lock and writes the slot: before it looks at the slot, in the
`end` of the transaction that it has found there, past that, or past the writing of the slot. -/
inductive HolderStage where
  | entered
  | ending (j : ℕ)
  | ended
  | written
  deriving DecidableEq, Repr

/-- Who has the lock of a kind: a call of `authenticate`, a call of `cancelLast…Tx`, or the
goroutine of an attempt, of a camera only. -/
inductive Holder where
  | start (i : ℕ) (stage : HolderStage)
  | cancel (stage : HolderStage)
  | attempt (i : ℕ)
  deriving DecidableEq, Repr

/-- Where the thread is. -/
def Holder.stage : Holder → Option HolderStage
  | .start _ stage | .cancel stage => some stage
  | .attempt _ => none

/-- The thread goes on. -/
def Holder.goTo (stage : HolderStage) : Holder → Holder
  | .start i _ => .start i stage
  | .cancel _ => .cancel stage
  | .attempt i => .attempt i

/-- The thread goes on if it waits for the `end` of `j` that returns. -/
def Holder.returned (j : ℕ) (h : Holder) : Holder :=
  if h.stage = some (.ending j) then h.goTo .ended else h

/-- A call of `end` that goes on (`isEnded` is not set): what it is to close, and whether the thread
made it that has the lock and waits for it. -/
structure EndCall where
  ct : CloseType
  byHolder : Bool
  deriving DecidableEq, Repr

/-- The biometric transactions of all sessions, by numbers, and what they share: for each kind the
slot of the transaction that was claimed last, and who has its lock; besides the calls of `end`, and
whether the daemon has panicked. -/
structure SlotState where
  txs : ℕ → Option BioTx
  slots : Biometric → Option ℕ
  locks : Biometric → Option Holder
  ends : ℕ → Option EndCall
  panicked : Bool

/-- What happens: a transaction is made or makes a step of its own; a start, or a cancel, takes the
lock of a kind, ends the transaction that it finds in the slot, and writes the slot; a start goes on
to the device, and returns; a call of `end` comes, and one returns. -/
inductive SlotAction where
  | create (i : ℕ) (k : Biometric) (lockState : LockState)
  | tx (i : ℕ) (a : BioStep)
  | lockStart (i : ℕ)
  | lockCancel (k : Biometric)
  | endLast (k : Biometric)
  | writeSlot (k : Biometric)
  | claim (err : Option String)
  | finish (i : ℕ)
  | endTx (i : ℕ) (ct : CloseType)
  | endReturn (i : ℕ)
  deriving DecidableEq, Repr

/-- What an `end` that returns has done: the transaction and its kind, and the slots before and
after its write. -/
structure EndReturn where
  i : ℕ
  kind : Biometric
  before : Biometric → Option ℕ
  after : Biometric → Option ℕ

/-- The slot of its own kind has changed at most, and that only where it pointed to the
transaction. -/
def EndReturn.OwnSlot (r : EndReturn) : Prop :=
  ∀ k, r.after k ≠ r.before k → k = r.kind ∧ r.before k = some r.i

namespace SlotState

/-- No transaction yet. -/
def init : SlotState := ⟨fun _ => none, fun _ => none, fun _ => none, fun _ => none, false⟩

/-- A transaction goes on. -/
def setTx (w : SlotState) (i : ℕ) (tx : BioTx) : SlotState :=
  { w with txs := Function.update w.txs i (some tx), panicked := w.panicked || tx.panicked }

/-- The lock of a kind changes hands, or its thread goes on. -/
def setLock (w : SlotState) (k : Biometric) (h : Option Holder) : SlotState :=
  { w with locks := Function.update w.locks k h }

/-- A slot is written. -/
def setSlot (w : SlotState) (k : Biometric) (i : Option ℕ) : SlotState :=
  { w with slots := Function.update w.slots k i }

/-- A call of `end` comes or returns. -/
def setEnd (w : SlotState) (i : ℕ) (e : Option EndCall) : SlotState :=
  { w with ends := Function.update w.ends i e }

/-- The steps that a transaction takes on its own: all but those of `authenticate` under the lock,
the return of a camera's goroutine, and the call of `end`. -/
def isOwn : BioStep → Bool
  | .fingerprint (.claim _) | .fingerprint .endTx => false
  | .camera .claim | .camera .finish | .camera .endTx => false
  | _ => true

/-- `end` is called, with `endedMu` free; a transaction that is marked returns at once.
Source: `fingerprint_tx.go`, `face_tx.go` and `iris_tx.go`, `end`. -/
def callEnd (w : SlotState) (i : ℕ) (e : EndCall) : Option SlotState :=
  (w.txs i).bind fun tx =>
    if w.ends i = none then
      tx.endTx.map fun tx' => if tx.isEnded then w else (w.setTx i tx').setEnd i (some e)
    else none

/-- The thread that has the lock looks at the slot, and ends the transaction that it finds there if
that is not its own. Source: `fingerprint_tx.go`, `face_tx.go` and `iris_tx.go`, `authenticate` and
`cancelLastFingerprintTx`, `cancelLastFaceTx` and `cancelLastIrisTx`. -/
def endLast (w : SlotState) (k : Biometric) : Option SlotState :=
  (w.locks k).bind fun h =>
    if h.stage = some .entered then
      match w.slots k with
      | none => some (w.setLock k (some (h.goTo .ended)))
      | some j =>
          if h = .start j .entered then some (w.setLock k (some (h.goTo .ended)))
          else (w.callEnd j ⟨.closeAllResource, true⟩).map fun w' =>
            w'.setLock k (some (h.goTo (if (w'.ends j).isSome then .ending j else .ended)))
    else none

/-- A start writes itself into the slot, a cancel empties it. A camera has made its channels before,
and keeps the lock. Source: `fingerprint_tx.go`, `face_tx.go` and `iris_tx.go`, `authenticate` and
`cancelLastFingerprintTx`, `cancelLastFaceTx` and `cancelLastIrisTx`. -/
def writeSlot (w : SlotState) (k : Biometric) : Option SlotState :=
  match w.locks k, k with
  | some (.cancel .ended), _ => some ((w.setSlot k none).setLock k none)
  | some (.start i .ended), .fingerprint =>
      some ((w.setSlot k (some i)).setLock k (some (.start i .written)))
  | some (.start i .ended), .camera _ =>
      (w.txs i).bind fun tx =>
        (tx.move (.camera .claim)).map fun tx' =>
          ((w.setTx i tx').setSlot k (some i)).setLock k (some (.attempt i))
  | _, _ => none

/-- The device is claimed, or refuses. Source: `fingerprint_tx.go`, `FingerprintTx.authenticate`. -/
def claim (w : SlotState) (err : Option String) : Option SlotState :=
  match w.locks .fingerprint with
  | some (.start i .written) =>
      (w.txs i).bind fun tx =>
        (tx.move (.fingerprint (.claim err))).map fun tx' =>
          (w.setTx i tx').setLock .fingerprint none
  | _ => none

/-- The goroutine of a camera gives its result and unlocks.
Source: `face_tx.go` and `iris_tx.go`, the goroutine of `authenticate`. -/
def finish (w : SlotState) (i : ℕ) : Option SlotState :=
  (w.txs i).bind fun tx =>
    (tx.move (.camera .finish)).map fun tx' => (w.setTx i tx').setLock tx.kind none

/-- An `end` clears the slot and returns, to the thread that has the lock if that has made the call.
Source: `fingerprint_tx.go`, `face_tx.go` and `iris_tx.go`, the last write of `end`. -/
def endReturn (w : SlotState) (i : ℕ) : Option (SlotState × EndReturn) :=
  (w.txs i).bind fun tx => (w.ends i).bind fun e =>
    if tx.ending then none
    else
      let w₁ := (tx.endSlot e.ct).elim w (w.setSlot · none)
      let w₂ :=
        if e.byHolder then w₁.setLock tx.kind ((w.locks tx.kind).map (Holder.returned i)) else w₁
      some (w₂.setEnd i none, ⟨i, tx.kind, w.slots, w₂.slots⟩)

/-- One step, as long as the daemon lives, observed through the `end` that returns. -/
def move (w : SlotState) (a : SlotAction) : Option (SlotState × Option EndReturn) :=
  if w.panicked then none
  else match a with
    | .create i k lockState =>
        if (w.txs i).isSome then none else some (w.setTx i (.new k lockState), none)
    | .tx i a =>
        if isOwn a then
          (w.txs i).bind fun tx => (tx.move a).map fun tx' => (w.setTx i tx', none)
        else none
    | .lockStart i =>
        (w.txs i).bind fun tx =>
          if tx.waits = true ∧ w.locks tx.kind = none then
            some (w.setLock tx.kind (some (.start i .entered)), none)
          else none
    | .lockCancel k =>
        if w.locks k = none then some (w.setLock k (some (.cancel .entered)), none) else none
    | .endLast k => (w.endLast k).map (·, none)
    | .writeSlot k => (w.writeSlot k).map (·, none)
    | .claim err => (w.claim err).map (·, none)
    | .finish i => (w.finish i).map (·, none)
    | .endTx i ct => (w.callEnd i ⟨ct, false⟩).map (·, none)
    | .endReturn i => (w.endReturn i).map fun r => (r.1, some r.2)

end SlotState

/-! ## What a step does to an attempt -/

namespace CameraVerify

variable {c : CameraType} {s s' : CameraVerify c}

/-- An attempt that verifies has the lock of the camera. -/
theorem phase_of_open (h : s.phase.any CameraPhase.isOpen = true) : s.phase ≠ none := by
  intro hnone
  rw [hnone] at h
  cases h

/-- An attempt begins with a claim only. -/
theorem verifies_move {a : CameraVerifyStep} (ha : a ≠ .claim) (hs : s.move a = some s') :
    (s'.phase.any CameraPhase.isOpen = true → s.phase.any CameraPhase.isOpen = true) ∧
      (s'.phase ≠ none → s.phase ≠ none) := by
  rcases phase_move hs with heq | hmoves
  · rw [heq]
    exact ⟨id, id⟩
  · generalize s.phase = p at hmoves ⊢
    generalize s'.phase = p' at hmoves ⊢
    cases hmoves with
    | claim => exact absurd rfl ha
    | noDriver | genErr | refuse | quit | leave =>
        exact ⟨fun h => (by cases h), fun _ h => by cases h⟩
    | finish => exact ⟨fun h => (by cases h), fun h => absurd rfl h⟩
    | giveStarted | givePrompt | gen | start => exact ⟨fun _ => rfl, fun _ h => by cases h⟩

end CameraVerify

/-- An attempt begins with a claim only. -/
theorem FingerprintSteps.holds_move {s s' : FingerprintSteps} {a : FingerprintStep}
    (ha : a ≠ .claim none) (hs : s.move a = some s') {n : ℕ} (h : (s'.phases n).holds = true) :
    (s.phases n).holds = true := by
  rcases phases_move hs n with heq | hmoves
  · rwa [← heq]
  · generalize s.phases n = p at hmoves ⊢
    generalize s'.phases n = p' at hmoves h
    cases hmoves with
    | start => exact absurd rfl ha
    | closeRelease | give => cases h
    | _ => rfl

namespace BioTx

variable {tx tx' : BioTx} {a : BioStep}

/-- The goroutine of a camera is on the way. -/
def HoldsLock : BioTx → Prop
  | .fingerprint _ => False
  | .camera _ s => s.phase ≠ none

/-- A camera that verifies has the lock. -/
theorem holdsLock_of_verifies {c : CameraType} (hk : tx.kind = .camera c) (h : tx.Verifies) :
    tx.HoldsLock := by
  cases tx with
  | fingerprint s => cases hk
  | camera c s => exact CameraVerify.phase_of_open h

/-- A new transaction neither verifies nor has a lock. -/
theorem new_idle (k : Biometric) (lockState : LockState) :
    ¬ (new k lockState).Verifies ∧ ¬ (new k lockState).HoldsLock := by
  cases k with
  | fingerprint => exact ⟨fun ⟨n, hn⟩ => (by cases hn), id⟩
  | camera c => exact ⟨fun h => (by cases h), fun h => h rfl⟩

/-- A step keeps the kind. -/
theorem kind_move (hs : tx.move a = some tx') : tx'.kind = tx.kind := by
  cases tx <;> cases a <;> first
    | obtain ⟨s, -, rfl⟩ := Option.map_eq_some_iff.mp hs; rfl
    | cases hs

/-- A step other than a claim begins no attempt, and takes no lock. -/
theorem verifies_move (hf : a ≠ .fingerprint (.claim none)) (hc : a ≠ .camera .claim)
    (hs : tx.move a = some tx') :
    (tx'.Verifies → tx.Verifies) ∧ (tx'.HoldsLock → tx.HoldsLock) := by
  cases tx with
  | fingerprint s =>
      cases a with
      | fingerprint a =>
          obtain ⟨s', hs', rfl⟩ := Option.map_eq_some_iff.mp hs
          have ha : a ≠ .claim none := by
            rintro rfl
            exact hf rfl
          exact ⟨fun ⟨n, hn⟩ => ⟨n, FingerprintSteps.holds_move ha hs' hn⟩, id⟩
      | camera a => cases hs
  | camera c s =>
      cases a with
      | fingerprint a => cases hs
      | camera a =>
          obtain ⟨s', hs', rfl⟩ := Option.map_eq_some_iff.mp hs
          have ha : a ≠ .claim := by
            rintro rfl
            exact hc rfl
          exact CameraVerify.verifies_move ha hs'

/-- A call of `end` is a step. -/
theorem move_of_endTx (hs : tx.endTx = some tx') :
    ∃ a, a ≠ .fingerprint (.claim none) ∧ a ≠ .camera .claim ∧ SlotState.isOwn a = false ∧
      tx.move a = some tx' := by
  cases tx with
  | fingerprint s => exact ⟨.fingerprint .endTx, by simp, by simp, rfl, hs⟩
  | camera c s => exact ⟨.camera .endTx, by simp, by simp, rfl, hs⟩

/-- A fingerprint that is claimed verifies. -/
theorem verifies_claim (hs : tx.move (.fingerprint (.claim none)) = some tx') :
    tx.kind = .fingerprint ∧ tx'.Verifies := by
  cases tx with
  | fingerprint s =>
      obtain ⟨s', hs', rfl⟩ := Option.map_eq_some_iff.mp hs
      cases FingerprintSteps.next_of_move hs' with
      | claim hstarts =>
          refine ⟨rfl, s.attempts + 1, ?_⟩
          simp only [FingerprintSteps.claim, FingerprintSteps.setPhase, Function.update_self,
            FingerPhase.holds]
  | camera c s => cases hs

/-- The goroutine that returns has the lock no longer. -/
theorem finish_released (hs : tx.move (.camera .finish) = some tx') : ¬ tx'.HoldsLock := by
  cases tx with
  | fingerprint s => cases hs
  | camera c s =>
      obtain ⟨s', hs', rfl⟩ := Option.map_eq_some_iff.mp hs
      cases CameraVerify.next_of_move hs' <;> exact fun h => h rfl

/-- A goroutine that returns had the lock. -/
theorem finish_held (hs : tx.move (.camera .finish) = some tx') : tx.HoldsLock := by
  cases tx with
  | fingerprint s => cases hs
  | camera c s =>
      obtain ⟨s', hs', rfl⟩ := Option.map_eq_some_iff.mp hs
      cases CameraVerify.next_of_move hs' with
      | finish hphase | finishNone hphase =>
          intro h
          rw [hphase] at h
          cases h

end BioTx

/-! ## The locks, and the owners -/

namespace SlotState

/-- What the locks are for: a camera whose goroutine is on the way has the lock of its kind, and the
start that has a lock is one of a transaction of that kind. -/
structure LockInv (w : SlotState) : Prop where
  attempts : ∀ i tx, w.txs i = some tx → tx.HoldsLock → w.locks tx.kind = some (.attempt i)
  starters : ∀ k i stage, w.locks k = some (.start i stage) → (w.txs i).map BioTx.kind = some k

/-- **The slots track their owners**: while a transaction verifies, the slot of its kind points to
it. -/
def OwnerTracked (w : SlotState) : Prop :=
  ∀ i tx, w.txs i = some tx → tx.Verifies → w.slots tx.kind = some i

/-- No slot is written over the head of its owner. A start or cancel of a fingerprint finds no other
one verifying when it writes the slot, and a start is still in the slot when it has claimed the
device; and an `end` clears a slot that is empty, or its own, with no attempt of its own under way.
-/
def KeepsOwner (w : SlotState) (a : SlotAction) : Prop :=
  w.move a ≠ none → match a with
    | .writeSlot .fingerprint => ∀ j tx, w.txs j = some tx → tx.kind = .fingerprint →
        tx.Verifies → w.locks .fingerprint = some (.start j .ended)
    | .claim none => ∀ i, w.locks .fingerprint = some (.start i .written) →
        w.slots .fingerprint = some i
    | .endReturn i => ∀ tx e k, w.txs i = some tx → w.ends i = some e →
        tx.endSlot e.ct = some k → w.slots k ≠ none →
          k = tx.kind ∧ w.slots k = some i ∧ ¬ tx.Verifies
    | _ => True

variable {w w' : SlotState} {i : ℕ} {tx tx' : BioTx}

theorem setTx_txs (w : SlotState) (i : ℕ) (tx : BioTx) :
    (w.setTx i tx).txs = Function.update w.txs i (some tx) := rfl

theorem setLock_locks (w : SlotState) (k : Biometric) (hd : Option Holder) :
    (w.setLock k hd).locks = Function.update w.locks k hd := rfl

theorem setSlot_slots (w : SlotState) (k : Biometric) (i : Option ℕ) :
    (w.setSlot k i).slots = Function.update w.slots k i := rfl

/-- A transaction goes on without beginning an attempt. -/
theorem OwnerTracked.setTx (h : w.OwnerTracked) (hkind : ∀ old, w.txs i = some old →
    tx'.kind = old.kind) (hv : tx'.Verifies → ∃ old, w.txs i = some old ∧ old.Verifies) :
    (w.setTx i tx').OwnerTracked := by
  intro j tx hj hvj
  by_cases hji : j = i
  · subst hji
    rw [setTx_txs, Function.update_self] at hj
    cases hj
    obtain ⟨old, hold, hvold⟩ := hv hvj
    rw [hkind old hold]
    exact h j old hold hvold
  · rw [setTx_txs, Function.update_of_ne hji] at hj
    exact h j tx hj hvj

/-- The kinds stay what they are. -/
theorem map_kind_setTx (hkind : ∀ old, w.txs i = some old → tx'.kind = old.kind) {j : ℕ}
    {k : Biometric} (hj : (w.txs j).map BioTx.kind = some k) :
    ((w.setTx i tx').txs j).map BioTx.kind = some k := by
  by_cases hji : j = i
  · subst hji
    obtain ⟨old, hold, rfl⟩ := Option.map_eq_some_iff.mp hj
    rw [setTx_txs, Function.update_self, Option.map_some, hkind old hold]
  · rwa [setTx_txs, Function.update_of_ne hji]

/-- A transaction goes on without taking the lock. -/
theorem LockInv.setTx (h : w.LockInv) (hkind : ∀ old, w.txs i = some old → tx'.kind = old.kind)
    (hl : tx'.HoldsLock → ∃ old, w.txs i = some old ∧ old.HoldsLock) : (w.setTx i tx').LockInv := by
  refine ⟨?_, fun k j stage hk => map_kind_setTx hkind (h.starters k j stage hk)⟩
  intro j tx hj hlj
  by_cases hji : j = i
  · subst hji
    rw [setTx_txs, Function.update_self] at hj
    cases hj
    obtain ⟨old, hold, hlold⟩ := hl hlj
    rw [hkind old hold]
    exact h.attempts j old hold hlold
  · rw [setTx_txs, Function.update_of_ne hji] at hj
    exact h.attempts j tx hj hlj

/-- A lock that no goroutine has goes to another thread. -/
theorem LockInv.setLock (h : w.LockInv) {k : Biometric} {hd : Option Holder}
    (hfree : ∀ i tx, w.txs i = some tx → tx.kind = k → tx.HoldsLock → hd = some (.attempt i))
    (hstart : ∀ i stage, hd = some (.start i stage) → (w.txs i).map BioTx.kind = some k) :
    (w.setLock k hd).LockInv := by
  constructor
  · intro j tx hj hlj
    by_cases hjk : tx.kind = k
    · rw [setLock_locks, hjk, Function.update_self]
      exact hfree j tx hj hjk hlj
    · rw [setLock_locks, Function.update_of_ne hjk]
      exact h.attempts j tx hj hlj
  · intro k' j stage hk'
    by_cases hkk : k' = k
    · subst hkk
      rw [setLock_locks, Function.update_self] at hk'
      exact hstart j stage hk'
    · rw [setLock_locks, Function.update_of_ne hkk] at hk'
      exact h.starters k' j stage hk'

/-- No goroutine has the lock that is free, or that another thread has. -/
theorem LockInv.free (h : w.LockInv) {k : Biometric} (hk : ∀ i, w.locks k ≠ some (.attempt i)) :
    ∀ i tx, w.txs i = some tx → tx.kind = k → ¬ tx.HoldsLock := by
  rintro j tx hj rfl hlj
  exact hk j (h.attempts j tx hj hlj)

/-- A camera verifies under the lock only. -/
theorem LockInv.silent (h : w.LockInv) {c : CameraType}
    (hk : ∀ i, w.locks (.camera c) ≠ some (.attempt i)) :
    ∀ i tx, w.txs i = some tx → tx.kind = .camera c → ¬ tx.Verifies := fun i tx hi hkind hv =>
  h.free hk i tx hi hkind (BioTx.holdsLock_of_verifies hkind hv)

/-- A slot is written: those that verify and have it are to be the new owner. -/
theorem OwnerTracked.setSlot (h : w.OwnerTracked) {k : Biometric} {x : Option ℕ} :
    (w.setSlot k x).OwnerTracked ↔
      ∀ j tx, w.txs j = some tx → tx.kind = k → tx.Verifies → x = some j := by
  constructor
  · rintro hw j tx hj rfl hv
    have hslot := hw j tx hj hv
    rwa [setSlot_slots, Function.update_self] at hslot
  · intro hx j tx hj hv
    by_cases hk : tx.kind = k
    · rw [setSlot_slots, hk, Function.update_self]
      exact hx j tx hj hk hv
    · rw [setSlot_slots, Function.update_of_ne hk]
      exact h j tx hj hv

/-! ## What the steps come to -/

/-- A transaction that takes a step other than a claim. -/
theorem keeps_setTx {a : BioStep} (hi : w.txs i = some tx) (hs : tx.move a = some tx')
    (hf : a ≠ .fingerprint (.claim none)) (hc : a ≠ .camera .claim) :
    (w.OwnerTracked → (w.setTx i tx').OwnerTracked) ∧ (w.LockInv → (w.setTx i tx').LockInv) := by
  obtain ⟨hv, hl⟩ := BioTx.verifies_move hf hc hs
  have hkind : ∀ old, w.txs i = some old → tx'.kind = old.kind := by
    intro old hold
    rw [hi] at hold
    cases hold
    exact BioTx.kind_move hs
  exact ⟨fun h => h.setTx hkind fun hv' => ⟨tx, hi, hv hv'⟩,
    fun h => h.setTx hkind fun hl' => ⟨tx, hi, hl hl'⟩⟩

/-- A call of `end` changes neither slots nor locks. -/
theorem callEnd_keeps {e : EndCall} (hs : w.callEnd i e = some w') :
    (w.OwnerTracked → w'.OwnerTracked) ∧ (w.LockInv → w'.LockInv) ∧ w'.locks = w.locks ∧
      ∀ j, (w.txs j).isSome = true → (w'.txs j).map BioTx.kind = (w.txs j).map BioTx.kind := by
  obtain ⟨tx, hi, hs⟩ := Option.bind_eq_some_iff.mp hs
  obtain ⟨-, hs⟩ := Option.ite_none_right_eq_some.mp hs
  obtain ⟨tx', htx, rfl⟩ := Option.map_eq_some_iff.mp hs
  obtain ⟨a, hf, hc, -, hmove⟩ := BioTx.move_of_endTx htx
  split_ifs
  · exact ⟨id, id, rfl, fun _ _ => rfl⟩
  · obtain ⟨howner, hlock⟩ := keeps_setTx hi hmove hf hc
    refine ⟨howner, fun h => ⟨(hlock h).attempts, (hlock h).starters⟩, rfl, ?_⟩
    intro j hj
    obtain ⟨txj, htxj⟩ := Option.isSome_iff_exists.mp hj
    rw [htxj, Option.map_some]
    refine map_kind_setTx ?_ (by rw [htxj, Option.map_some])
    intro old hold
    rw [hi] at hold
    cases hold
    exact BioTx.kind_move hmove

/-- The thread that has the lock has written the slot, past the `end` of the transaction that it
found there: a cancel empties it, and a start puts its own transaction there. -/
inductive WriteSlot (w : SlotState) : Biometric → SlotState → Prop
  | cancel {k : Biometric} (hlock : w.locks k = some (.cancel .ended)) :
      WriteSlot w k ((w.setSlot k none).setLock k none)
  | fingerprint {i : ℕ} (hlock : w.locks .fingerprint = some (.start i .ended)) :
      WriteSlot w .fingerprint
        ((w.setSlot .fingerprint (some i)).setLock .fingerprint (some (.start i .written)))
  | camera {c : CameraType} {i : ℕ} {tx tx' : BioTx}
      (hlock : w.locks (.camera c) = some (.start i .ended)) (hi : w.txs i = some tx)
      (hmove : tx.move (.camera .claim) = some tx') :
      WriteSlot w (.camera c)
        (((w.setTx i tx').setSlot (.camera c) (some i)).setLock (.camera c) (some (.attempt i)))

theorem writeSlot_eq_some {k : Biometric} (hs : w.writeSlot k = some w') : w.WriteSlot k w' := by
  unfold writeSlot at hs
  split at hs
  · next hlock =>
      cases hs
      exact .cancel hlock
  · next i hlock =>
      cases hs
      exact .fingerprint hlock
  · next i c hlock =>
      obtain ⟨tx, hi, hs⟩ := Option.bind_eq_some_iff.mp hs
      obtain ⟨tx', hmove, rfl⟩ := Option.map_eq_some_iff.mp hs
      exact .camera hlock hi hmove
  · cases hs

/-- The ways in which a step goes, each with what it has found and the state that it leaves. The
thread that has the lock finds nobody else in the slot, or calls an `end`; the thread that made a
call of `end` goes on where that returns. -/
inductive Next (w : SlotState) : SlotAction → SlotState → Option EndReturn → Prop
  | create {i : ℕ} {k : Biometric} {lockState : LockState} (hnew : w.txs i = none) :
      Next w (.create i k lockState) (w.setTx i (.new k lockState)) none
  | tx {i : ℕ} {b : BioStep} {tx tx' : BioTx} (hown : isOwn b = true) (hi : w.txs i = some tx)
      (hmove : tx.move b = some tx') : Next w (.tx i b) (w.setTx i tx') none
  | lockStart {i : ℕ} {tx : BioTx} (hi : w.txs i = some tx) (hfree : w.locks tx.kind = none) :
      Next w (.lockStart i) (w.setLock tx.kind (some (.start i .entered))) none
  | lockCancel {k : Biometric} (hfree : w.locks k = none) :
      Next w (.lockCancel k) (w.setLock k (some (.cancel .entered))) none
  | look {k : Biometric} {hd : Holder} {stage : HolderStage} (hlock : w.locks k = some hd)
      (hstage : hd.stage = some .entered) :
      Next w (.endLast k) (w.setLock k (some (hd.goTo stage))) none
  | endLast {k : Biometric} {hd : Holder} {stage : HolderStage} {j : ℕ} {e : EndCall}
      {w' : SlotState} (hlock : w.locks k = some hd) (hstage : hd.stage = some .entered)
      (hcall : w.callEnd j e = some w') :
      Next w (.endLast k) (w'.setLock k (some (hd.goTo stage))) none
  | writeSlot {k : Biometric} {w' : SlotState} (hwrite : w.WriteSlot k w') :
      Next w (.writeSlot k) w' none
  | claim {err : Option String} {i : ℕ} {tx tx' : BioTx}
      (hlock : w.locks .fingerprint = some (.start i .written))
      (hi : w.txs i = some tx) (hmove : tx.move (.fingerprint (.claim err)) = some tx') :
      Next w (.claim err) ((w.setTx i tx').setLock .fingerprint none) none
  | finish {i : ℕ} {tx tx' : BioTx} (hi : w.txs i = some tx)
      (hmove : tx.move (.camera .finish) = some tx') :
      Next w (.finish i) ((w.setTx i tx').setLock tx.kind none) none
  | endTx {i : ℕ} {ct : CloseType} {w' : SlotState}
      (hcall : w.callEnd i ⟨ct, false⟩ = some w') : Next w (.endTx i ct) w' none
  | endReturn {i : ℕ} {tx : BioTx} {e : EndCall} {slots : Biometric → Option ℕ}
      {locks : Biometric → Option Holder} (hi : w.txs i = some tx) (he : w.ends i = some e)
      (hslots : slots = (tx.endSlot e.ct).elim w.slots fun k => Function.update w.slots k none)
      (hlocks : locks = w.locks ∨ locks =
        Function.update w.locks tx.kind ((w.locks tx.kind).map (Holder.returned i))) :
      Next w (.endReturn i)
        { w with slots := slots, locks := locks, ends := Function.update w.ends i none }
        (some ⟨i, tx.kind, w.slots, slots⟩)

/-- The thread that has the lock looks at the slot. -/
theorem next_of_endLast {k : Biometric} (hs : w.endLast k = some w') :
    w.Next (.endLast k) w' none := by
  obtain ⟨hd, hlock, hs⟩ := Option.bind_eq_some_iff.mp hs
  obtain ⟨hstage, hs⟩ := Option.ite_none_right_eq_some.mp hs
  split at hs
  · cases hs
    exact .look hlock hstage
  · next j hj =>
      split_ifs at hs
      · cases hs
        exact .look hlock hstage
      · obtain ⟨w₁, hcall, rfl⟩ := Option.map_eq_some_iff.mp hs
        exact .endLast hlock hstage hcall

/-- The device is claimed, or refuses. -/
theorem next_of_claim {err : Option String} (hs : w.claim err = some w') :
    w.Next (.claim err) w' none := by
  unfold claim at hs
  split at hs
  · next i hlock =>
      obtain ⟨tx, hi, hs⟩ := Option.bind_eq_some_iff.mp hs
      obtain ⟨tx', hmove, rfl⟩ := Option.map_eq_some_iff.mp hs
      exact .claim hlock hi hmove
  · cases hs

/-- An `end` returns. -/
theorem next_of_endReturn {r : SlotState × EndReturn} (hs : w.endReturn i = some r) :
    w.Next (.endReturn i) r.1 (some r.2) := by
  obtain ⟨tx, hi, hs⟩ := Option.bind_eq_some_iff.mp hs
  obtain ⟨e, he, hs⟩ := Option.bind_eq_some_iff.mp hs
  obtain ⟨-, hs⟩ := Option.ite_none_left_eq_some.mp hs
  cases hs
  -- whether a slot is cleared, and whether the thread that has the lock goes on
  rcases hslot : tx.endSlot e.ct with _ | k <;> rcases hholder : e.byHolder with _ | _
  · exact .endReturn hi he (by rw [hslot]; rfl) (.inl rfl)
  · exact .endReturn hi he (by rw [hslot]; rfl) (.inr rfl)
  · exact .endReturn hi he (by rw [hslot]; rfl) (.inl rfl)
  · exact .endReturn hi he (by rw [hslot]; rfl) (.inr rfl)

/-- **The inversion**: a step that is taken goes in one of these ways. -/
theorem next_of_move {a : SlotAction} {o : Option EndReturn} (hs : w.move a = some (w', o)) :
    w.Next a w' o := by
  obtain ⟨-, hs⟩ := Option.ite_none_left_eq_some.mp hs
  cases a with
  | create i k lockState =>
      obtain ⟨hnew, heq⟩ := Option.ite_none_left_eq_some.mp hs
      cases heq
      exact .create (by simpa using hnew)
  | tx i b =>
      obtain ⟨hown, hs⟩ := Option.ite_none_right_eq_some.mp hs
      obtain ⟨tx, hi, hs⟩ := Option.bind_eq_some_iff.mp hs
      obtain ⟨tx', hmove, heq⟩ := Option.map_eq_some_iff.mp hs
      cases heq
      exact .tx hown hi hmove
  | lockStart i =>
      obtain ⟨tx, hi, hs⟩ := Option.bind_eq_some_iff.mp hs
      obtain ⟨⟨-, hfree⟩, heq⟩ := Option.ite_none_right_eq_some.mp hs
      cases heq
      exact .lockStart hi hfree
  | lockCancel k =>
      obtain ⟨hfree, heq⟩ := Option.ite_none_right_eq_some.mp hs
      cases heq
      exact .lockCancel hfree
  | endLast k =>
      obtain ⟨hw₂, rfl⟩ := observed_eq_some.mp hs
      exact next_of_endLast hw₂
  | writeSlot k =>
      obtain ⟨hw₂, rfl⟩ := observed_eq_some.mp hs
      exact .writeSlot (writeSlot_eq_some hw₂)
  | claim err =>
      obtain ⟨hw₂, rfl⟩ := observed_eq_some.mp hs
      exact next_of_claim hw₂
  | finish i =>
      obtain ⟨hw₂, rfl⟩ := observed_eq_some.mp hs
      obtain ⟨tx, hi, hs⟩ := Option.bind_eq_some_iff.mp hw₂
      obtain ⟨tx', hmove, rfl⟩ := Option.map_eq_some_iff.mp hs
      exact .finish hi hmove
  | endTx i ct =>
      obtain ⟨hw₂, rfl⟩ := observed_eq_some.mp hs
      exact .endTx hw₂
  | endReturn i =>
      obtain ⟨r, hr, heq⟩ := Option.map_eq_some_iff.mp hs
      cases heq
      exact next_of_endReturn hr

/-- What a step of the whole does to one transaction: nothing, a step of its own, or the making of
it. A step that it takes on its own is the step of the whole. -/
inductive TxMoves (a : SlotAction) (j : ℕ) : Option BioTx → Option BioTx → Prop
  | same (o : Option BioTx) : TxMoves a j o o
  | move {tx tx' : BioTx} {b : BioStep} (hb : a = .tx j b ∨ isOwn b = false)
      (hs : tx.move b = some tx') : TxMoves a j (some tx) (some tx')
  | new (k : Biometric) (lockState : LockState) : TxMoves a j none (some (.new k lockState))

theorem txMoves_setTx {a : SlotAction} {b : BioStep} (hi : w.txs i = some tx)
    (hs : tx.move b = some tx') (hb : a = .tx i b ∨ isOwn b = false) (j : ℕ) :
    TxMoves a j (w.txs j) ((w.setTx i tx').txs j) := by
  by_cases hji : j = i
  · subst hji
    rw [setTx_txs, Function.update_self, hi]
    exact .move hb hs
  · rw [setTx_txs, Function.update_of_ne hji]
    exact .same _

theorem txMoves_callEnd {a : SlotAction} {e : EndCall} (hs : w.callEnd i e = some w') (j : ℕ) :
    TxMoves a j (w.txs j) (w'.txs j) := by
  obtain ⟨tx, hi, hs⟩ := Option.bind_eq_some_iff.mp hs
  obtain ⟨-, hs⟩ := Option.ite_none_right_eq_some.mp hs
  obtain ⟨tx', htx, rfl⟩ := Option.map_eq_some_iff.mp hs
  obtain ⟨b, -, -, hb, hmove⟩ := BioTx.move_of_endTx htx
  split_ifs
  · exact .same _
  · exact txMoves_setTx hi hmove (.inr hb) j

/-- **What a step does to the transactions.** -/
theorem txMoves_step {a : SlotAction} {o : Option EndReturn} (hs : w.move a = some (w', o))
    (j : ℕ) : TxMoves a j (w.txs j) (w'.txs j) := by
  cases next_of_move hs with
  | @create i k lockState hnew =>
      by_cases hji : j = i
      · subst hji
        rw [setTx_txs, Function.update_self, hnew]
        exact .new k lockState
      · rw [setTx_txs, Function.update_of_ne hji]
        exact .same _
  | tx hown hi hmove => exact txMoves_setTx hi hmove (.inl rfl) j
  | lockStart | lockCancel | look | endReturn => exact .same _
  | endLast hlock hstage hcall => exact txMoves_callEnd hcall j
  | writeSlot hwrite =>
      cases hwrite with
      | cancel | fingerprint => exact .same _
      | camera hlock hi hmove => exact txMoves_setTx hi hmove (.inr rfl) j
  | claim hlock hi hmove => exact txMoves_setTx hi hmove (.inr rfl) j
  | finish hi hmove => exact txMoves_setTx hi hmove (.inr rfl) j
  | endTx hcall => exact txMoves_callEnd hcall j

/-! ## The locks are kept -/

/-- A thread that goes on with its lock, or gives it back. -/
theorem LockInv.goTo (h : w.LockInv) {k : Biometric} {hd : Holder} (hlock : w.locks k = some hd)
    (hstage : ∃ stage, hd.stage = some stage) (stage : HolderStage) :
    (w.setLock k (some (hd.goTo stage))).LockInv := by
  obtain ⟨old, hold⟩ := hstage
  refine h.setLock ?_ ?_
  · intro j tx hj hk hl
    rw [← hk, h.attempts j tx hj hl, Option.some.injEq] at hlock
    subst hlock
    cases hold
  · intro j st heq
    cases hd with
    | start i st' =>
        cases heq
        exact h.starters k j st' hlock
    | cancel | attempt => cases heq

/-- The lock is given back, by the goroutine that had it or by another thread. -/
theorem LockInv.unlock (h : w.LockInv) {k : Biometric}
    (hfree : ∀ i tx, w.txs i = some tx → tx.kind = k → ¬ tx.HoldsLock) :
    (w.setLock k none).LockInv :=
  h.setLock (fun j tx hj hk hl => absurd hl (hfree j tx hj hk)) fun _ _ heq => by cases heq

/-- A lock that the goroutine of an attempt does not have. -/
theorem not_attempt {k : Biometric} {hd : Holder} {stage : HolderStage}
    (hlock : w.locks k = some hd) (hstage : hd.stage = some stage) :
    ∀ i, w.locks k ≠ some (.attempt i) := by
  intro i hi
  rw [hlock, Option.some.injEq] at hi
  subst hi
  cases hstage

/-- A slot that is written says nothing of the locks. -/
theorem LockInv.setSlot (h : w.LockInv) (k : Biometric) (x : Option ℕ) : (w.setSlot k x).LockInv :=
  ⟨h.attempts, h.starters⟩

theorem lockInv_writeSlot (h : w.LockInv) {k : Biometric} (hs : w.WriteSlot k w') :
    w'.LockInv := by
  cases hs with
  | cancel hlock => exact (h.setSlot _ _).unlock (h.free (not_attempt hlock rfl))
  | fingerprint hlock => exact (h.setSlot _ _).goTo hlock ⟨_, rfl⟩ .written
  | @camera c i tx tx' hlock hi hmove =>
      have hfree := h.free (not_attempt hlock rfl)
      have hkind : tx.kind = .camera c := by
        have hstart := h.starters _ _ _ hlock
        rwa [hi, Option.map_some, Option.some.injEq] at hstart
      constructor
      · intro j txj hj hl
        by_cases hji : j = i
        · subst hji
          obtain rfl : tx' = txj := by
            have hself : Function.update w.txs j (some tx') j = some txj := hj
            rwa [Function.update_self, Option.some.injEq] at hself
          rw [setLock_locks, BioTx.kind_move hmove, hkind, Function.update_self]
        · have hold : w.txs j = some txj := by
            have hother : Function.update w.txs i (some tx') j = some txj := hj
            rwa [Function.update_of_ne hji] at hother
          have hne : txj.kind ≠ .camera c := fun hk => hfree j txj hold hk hl
          rw [setLock_locks, Function.update_of_ne hne]
          exact h.attempts j txj hold hl
      · intro k' j stage hk'
        by_cases hkc : k' = .camera c
        · subst hkc
          rw [setLock_locks, Function.update_self] at hk'
          cases hk'
        · rw [setLock_locks, Function.update_of_ne hkc] at hk'
          refine map_kind_setTx ?_ (h.starters k' j stage hk')
          intro old hold
          rw [hi] at hold
          cases hold
          exact BioTx.kind_move hmove

/-- **The locks are kept** by every step. -/
theorem lockInv_step {a : SlotAction} {o : Option EndReturn} (h : w.LockInv)
    (hs : w.move a = some (w', o)) : w'.LockInv := by
  cases next_of_move hs with
  | @create i k lockState hnew =>
      refine h.setTx ?_ fun hl => absurd hl (BioTx.new_idle k lockState).2
      intro old hold
      rw [hnew] at hold
      cases hold
  | tx hown hi hmove =>
      refine (keeps_setTx hi hmove ?_ ?_).2 h
      · rintro rfl
        cases hown
      · rintro rfl
        cases hown
  | lockStart hi hfree =>
      refine h.setLock (fun j txj hj hk hl => absurd hl (h.free ?_ j txj hj hk)) ?_
      · rw [hfree]
        rintro j ⟨⟩
      · rintro j stage ⟨⟩
        rw [hi, Option.map_some]
  | lockCancel hfree =>
      refine h.setLock (fun j txj hj hk hl => absurd hl (h.free ?_ j txj hj hk)) ?_
      · rw [hfree]
        rintro j ⟨⟩
      · rintro j stage ⟨⟩
  | look hlock hstage => exact h.goTo hlock ⟨_, hstage⟩ _
  | endLast hlock hstage hcall =>
      obtain ⟨-, hkeep, hlocks, -⟩ := callEnd_keeps hcall
      exact (hkeep h).goTo (hlocks ▸ hlock) ⟨_, hstage⟩ _
  | writeSlot hwrite => exact lockInv_writeSlot h hwrite
  | @claim err i tx tx' hlock hi hmove =>
      have hkind := BioTx.kind_move hmove
      have hfinger : ¬ tx'.HoldsLock := by
        cases tx with
        | fingerprint s =>
            obtain ⟨s', -, rfl⟩ := Option.map_eq_some_iff.mp hmove
            exact id
        | camera c s => cases hmove
      have hinv : (w.setTx i tx').LockInv := by
        refine h.setTx ?_ fun hl => absurd hl hfinger
        intro old hold
        rw [hi] at hold
        cases hold
        exact hkind
      exact hinv.unlock (hinv.free (not_attempt hlock rfl))
  | @finish i tx tx' hi hmove =>
      have hinv := (keeps_setTx hi hmove (by simp) (by simp)).2 h
      refine hinv.unlock ?_
      intro j txj hj hk hl
      have hheld := h.attempts i tx hi (BioTx.finish_held hmove)
      by_cases hji : j = i
      · subst hji
        rw [setTx_txs, Function.update_self, Option.some.injEq] at hj
        subst hj
        exact BioTx.finish_released hmove hl
      · have hother := hinv.attempts j txj hj hl
        rw [hk] at hother
        exact hji (Holder.attempt.inj (Option.some.inj (hother.symm.trans hheld)))
  | endTx hcall => exact (callEnd_keeps hcall).2.1 h
  | @endReturn i tx e slots locks hi he hslots hlocks =>
      rcases hlocks with rfl | rfl
      · exact ⟨h.attempts, h.starters⟩
      · rcases hk : w.locks tx.kind with _ | hd
        · have hinv := h.unlock (h.free (k := tx.kind) (by rw [hk]; rintro j ⟨⟩))
          exact ⟨hinv.attempts, hinv.starters⟩
        · rw [Option.map_some, Holder.returned]
          split_ifs with hwaits
          · have hinv := h.goTo hk ⟨_, hwaits⟩ .ended
            exact ⟨hinv.attempts, hinv.starters⟩
          · rw [Function.update_eq_self_iff.mpr hk.symm]
            exact ⟨h.attempts, h.starters⟩

/-! ## The owners are tracked -/

/-- **Writing a slot**: the thread that has the lock writes over the head of nobody, unless a
fingerprint verifies that it did not find. -/
theorem tracked_writeSlot (hinv : w.LockInv) (h : w.OwnerTracked) {k : Biometric}
    (hs : w.WriteSlot k w') :
    w'.OwnerTracked ↔ (k = .fingerprint → ∀ j tx, w.txs j = some tx → tx.kind = .fingerprint →
      tx.Verifies → w.locks .fingerprint = some (.start j .ended)) := by
  cases hs with
  | cancel hlock =>
      refine Iff.trans h.setSlot ?_
      cases k with
      | fingerprint =>
          constructor
          · exact fun hw _ j tx hj hk hv => by cases hw j tx hj hk hv
          · intro hw j tx hj hk hv
            rw [hlock] at hw
            cases hw rfl j tx hj hk hv
      | camera c =>
          refine iff_of_true ?_ fun hk => by cases hk
          intro j tx hj hk hv
          exact absurd hv (hinv.silent (not_attempt hlock rfl) j tx hj hk)
  | @fingerprint i hlock =>
      refine Iff.trans h.setSlot ?_
      rw [hlock]
      constructor
      · intro hw _ j tx hj hk hv
        rw [Option.some.inj (hw j tx hj hk hv)]
      · intro hw j tx hj hk hv
        cases hw rfl j tx hj hk hv
        rfl
  | @camera c i tx tx' hlock hi hmove =>
      refine iff_of_true ?_ fun hk => by cases hk
      intro j txj hj hv
      have hkind : tx.kind = .camera c := by
        have hstart := hinv.starters _ _ _ hlock
        rwa [hi, Option.map_some, Option.some.injEq] at hstart
      show Function.update w.slots (.camera c) (some i) txj.kind = some j
      by_cases hji : j = i
      · subst hji
        have hself : Function.update w.txs j (some tx') j = some txj := hj
        rw [Function.update_self, Option.some.injEq] at hself
        subst hself
        rw [BioTx.kind_move hmove, hkind, Function.update_self]
      · have hold : w.txs j = some txj := by
          have hother : Function.update w.txs i (some tx') j = some txj := hj
          rwa [Function.update_of_ne hji] at hother
        have hne : txj.kind ≠ .camera c := fun hk =>
          hinv.silent (not_attempt hlock rfl) j txj hold hk hv
        rw [Function.update_of_ne hne]
        exact h j txj hold hv

/-- **Claiming the device**: the attempt that begins is tracked where its start is still in the
slot. -/
theorem tracked_claim (h : w.OwnerTracked) (hi : w.txs i = some tx)
    (hmove : tx.move (.fingerprint (.claim none)) = some tx') :
    (w.setTx i tx').OwnerTracked ↔ w.slots .fingerprint = some i := by
  obtain ⟨hkind, hv⟩ := BioTx.verifies_claim hmove
  have hkind' : tx'.kind = .fingerprint := (BioTx.kind_move hmove).trans hkind
  constructor
  · intro hw
    have hself : (w.setTx i tx').txs i = some tx' := Function.update_self ..
    rw [← hkind']
    exact hw i tx' hself hv
  · intro hslot j txj hj hvj
    by_cases hji : j = i
    · subst hji
      rw [setTx_txs, Function.update_self, Option.some.injEq] at hj
      rw [← hj, hkind']
      exact hslot
    · rw [setTx_txs, Function.update_of_ne hji] at hj
      exact h j txj hj hvj

/-- **An `end` that returns**: it leaves the owners alone where it clears a slot that is empty, or
its own with no attempt under way. -/
theorem tracked_endReturn (h : w.OwnerTracked) (hi : w.txs i = some tx) {k : Biometric}
    {w₁ : SlotState} (htxs : w₁.txs = w.txs) (hslots : w₁.slots = Function.update w.slots k none) :
    w₁.OwnerTracked ∧ EndReturn.OwnSlot ⟨i, tx.kind, w.slots, w₁.slots⟩ ↔
      (w.slots k ≠ none → k = tx.kind ∧ w.slots k = some i ∧ ¬ tx.Verifies) := by
  have hclear : w₁.slots k = none := by rw [hslots, Function.update_self]
  constructor
  · rintro ⟨hw, hown⟩ hk
    obtain ⟨rfl, hself⟩ := hown k fun heq => hk (heq.symm.trans hclear)
    refine ⟨rfl, hself, ?_⟩
    intro hv
    rw [hw i tx (htxs ▸ hi) hv] at hclear
    cases hclear
  · intro hw
    by_cases hk : w.slots k = none
    · have hsame : w₁.slots = w.slots := hslots.trans (Function.update_eq_self_iff.mpr hk.symm)
      refine ⟨?_, fun k' hk' => absurd (congrFun hsame k') hk'⟩
      intro j txj hj hv
      rw [hsame]
      exact h j txj (htxs ▸ hj) hv
    · obtain ⟨rfl, hself, hnot⟩ := hw hk
      constructor
      · intro j txj hj hv
        rw [htxs] at hj
        have hslot := h j txj hj hv
        have hne : txj.kind ≠ tx.kind := by
          intro heq
          rw [heq, hself, Option.some.injEq] at hslot
          subst hslot
          rw [hi, Option.some.injEq] at hj
          subst hj
          exact hnot hv
        rwa [hslots, Function.update_of_ne hne]
      · intro k' hk'
        obtain rfl : k' = tx.kind := by
          by_contra hne
          have hsame : w₁.slots k' = w.slots k' := by rw [hslots, Function.update_of_ne hne]
          exact hk' hsame
        exact ⟨rfl, hself⟩

/-- Nothing is observed, and the owners are tracked whatever the step finds. -/
theorem tracked_of_keeps {a : SlotAction} (h : w'.OwnerTracked) (ha : w.KeepsOwner a) :
    w'.OwnerTracked ∧ (∀ r ∈ (none : Option EndReturn), r.OwnSlot) ↔ w.KeepsOwner a :=
  iff_of_true ⟨h, fun _ hr => by cases hr⟩ ha

/-- **One step** tracks the owners, and writes its own slot only, exactly where it writes no slot
over the head of its owner. -/
theorem tracked_step {a : SlotAction} {o : Option EndReturn} (hinv : w.LockInv)
    (h : w.OwnerTracked) (hs : w.move a = some (w', o)) :
    w'.OwnerTracked ∧ (∀ r ∈ o, r.OwnSlot) ↔ w.KeepsOwner a := by
  have hcan : w.move a ≠ none := by rw [hs]; rintro ⟨⟩
  have hnone : ∀ r ∈ (none : Option EndReturn), r.OwnSlot := fun _ hr => by cases hr
  cases next_of_move hs with
  | @create i k lockState hnew =>
      refine tracked_of_keeps (h.setTx ?_ ?_) fun _ => trivial
      · intro old hold
        rw [hnew] at hold
        cases hold
      · intro hv
        exact absurd hv (BioTx.new_idle k lockState).1
  | tx hown hi hmove =>
      refine tracked_of_keeps ((keeps_setTx hi hmove ?_ ?_).1 h) fun _ => trivial
      · rintro rfl
        cases hown
      · rintro rfl
        cases hown
  | lockStart | lockCancel | look => exact tracked_of_keeps h fun _ => trivial
  | endLast hlock hstage hcall =>
      have hw := (callEnd_keeps hcall).1 h
      exact tracked_of_keeps hw fun _ => trivial
  | @writeSlot k _ hwrite =>
      rw [and_iff_left hnone, tracked_writeSlot hinv h hwrite]
      cases k with
      | fingerprint => exact ⟨fun hw _ => hw rfl, fun hw _ => hw hcan⟩
      | camera c => exact iff_of_true (fun hk => by cases hk) fun _ => trivial
  | @claim err i tx tx' hlock hi hmove =>
      cases err with
      | none =>
          rw [and_iff_left hnone]
          refine Iff.trans (tracked_claim h hi hmove) ?_
          constructor
          · intro hslot _ j hj
            rw [hlock] at hj
            cases hj
            exact hslot
          · exact fun hw => hw hcan i hlock
      | some err =>
          exact tracked_of_keeps ((keeps_setTx hi hmove (by simp) (by simp)).1 h) fun _ => trivial
  | finish hi hmove =>
      exact tracked_of_keeps ((keeps_setTx hi hmove (by simp) (by simp)).1 h) fun _ => trivial
  | endTx hcall => exact tracked_of_keeps ((callEnd_keeps hcall).1 h) fun _ => trivial
  | @endReturn i tx e slots locks hi he hslots hlocks =>
      simp only [Option.mem_some_iff, forall_eq']
      rcases hslot : tx.endSlot e.ct with _ | k
      · rw [hslot] at hslots
        subst hslots
        refine iff_of_true ⟨h, fun k hk => absurd rfl hk⟩ ?_
        intro _ tx' e' k hi' he' hk
        rw [hi] at hi'
        rw [he] at he'
        cases hi'
        cases he'
        cases hslot.symm.trans hk
      · rw [hslot] at hslots
        refine Iff.trans (tracked_endReturn h hi rfl hslots) ?_
        constructor
        · intro hw _ tx' e' k' hi' he' hk'
          rw [hi] at hi'
          rw [he] at he'
          cases hi'
          cases he'
          cases hslot.symm.trans hk'
          exact hw
        · exact fun hw => hw hcan tx e k hi he hslot

/-- Whom a start or a cancel ends: where the owners are tracked, the one that verifies, if it is not
the starting one itself. -/
theorem endLast_finds (h : w.OwnerTracked) {hd : Holder} (hlock : w.locks tx.kind = some hd)
    (hstage : hd.stage = some .entered) (hi : w.txs i = some tx) (hv : tx.Verifies)
    (hother : hd ≠ .start i .entered) :
    w.endLast tx.kind = (w.callEnd i ⟨.closeAllResource, true⟩).map fun w' =>
      w'.setLock tx.kind
        (some (hd.goTo (if (w'.ends i).isSome then .ending i else .ended))) := by
  simp only [endLast, hlock, Option.bind_some, hstage, if_true, h i tx hi hv, if_neg hother]

/-! ## Whole runs -/

theorem lockInv_init : init.LockInv := by
  constructor
  · rintro i tx ⟨⟩
  · rintro k i stage ⟨⟩

theorem ownerTracked_init : init.OwnerTracked := by
  rintro i tx ⟨⟩

/-- **When the slots track their owners**: over every run of any number of transactions, a
transaction that verifies is the one that its slot points to, and an `end` that returns has changed
its own slot at most, exactly where no slot is written over the head of its owner. Then a start or a
cancel ends the transaction that verifies, if it is not the starting one itself. -/
theorem slots_track (acts : List SlotAction) :
    ((∀ cs t os, cs <+: acts → run move init cs = some (t, os) →
        t.OwnerTracked ∧ ∀ o ∈ os, ∀ r ∈ o, r.OwnSlot) ↔ Along move KeepsOwner init acts) ∧
    (Along move KeepsOwner init acts → ∀ w os, run move init acts = some (w, os) →
      ∀ i tx hd, w.txs i = some tx → tx.Verifies → w.locks tx.kind = some hd →
        hd.stage = some .entered → hd ≠ .start i .entered →
          w.endLast tx.kind = (w.callEnd i ⟨.closeAllResource, true⟩).map fun w' =>
            w'.setLock tx.kind
              (some (hd.goTo (if (w'.ends i).isSome then .ending i else .ended)))) := by
  have hiff : (∀ cs t os, cs <+: acts → run move init cs = some (t, os) →
      t.OwnerTracked ∧ ∀ o ∈ os, ∀ r ∈ o, r.OwnSlot) ↔ Along move KeepsOwner init acts :=
    observes_iff_along (J := LockInv) (Q := fun o => ∀ r ∈ o, r.OwnSlot)
      (fun _ _ _ _ hinv hs => lockInv_step hinv hs)
      (fun _ _ _ _ hinv h hs => tracked_step hinv h hs) (fun _ _ hs hcan => absurd hs hcan)
      lockInv_init ownerTracked_init acts
  refine ⟨hiff, ?_⟩
  intro hkeeps w os hr i tx hd hi hv hlock hstage hother
  exact endLast_finds (hiff.mpr hkeeps acts w os List.prefix_rfl hr).1 hlock hstage hi hv hother

/-- The steps of a camera from the call of `authenticate` until its goroutine is under way. -/
def cameraStarts (i : ℕ) (c : CameraType) : List SlotAction :=
  [.create i (.camera c) .unlock, .tx i (.camera .start), .lockStart i, .endLast (.camera c),
    .writeSlot (.camera c), .tx i (.camera .giveStarted), .tx i (.camera .givePrompt)]

/-- The iris of another session is ended while a face verifies, and the slot of the faces is
cleared. -/
theorem iris_end_clears_face :
    ¬ ∀ acts t os, run move init acts = some (t, os) →
        t.OwnerTracked ∧ ∀ o ∈ os, ∀ r ∈ o, r.OwnSlot := by
  intro h
  obtain ⟨htracked, -⟩ := h
    (cameraStarts 1 .face ++ cameraStarts 2 .iris ++
      [.tx 2 (.camera .noDriver), .finish 2, .endTx 2 .closeVerify, .tx 2 (.camera .endWait),
        .tx 2 (.camera .endReceive), .tx 2 (.camera .endGive), .tx 2 (.camera .endMark),
        .tx 2 (.camera .endRelease), .endReturn 2]) _ _ rfl
  exact absurd (htracked 1 _ rfl rfl) (by decide)

end SlotState

end LingmoAuthenticate.Session
