import LingmoAuthenticate.Session.InitData
import LingmoAuthenticate.UKey.Manager

/-!
# A key and its manager: `ukey_tx.go` against `ukey/interface.go`

The two talk by calls only. The transaction remembers the id of its verification, and, in
`hasInit`, that it need not construct one; the manager has the verification, or has it no longer.
`hasInit` is set before `ConstructVerification` is called and the id is assigned after it has
returned, with no lock held, so that a second start can come in between. A goroutine reads the id of
the transaction when it makes its call, and the call reaches the manager later.

* `UKeyVerify.move` is one step of a start, of one of the goroutines, of a signal handler or of
  another client of the manager, in any order and number.
* `run_start_alone`: where nothing comes in between, the steps of a start come to one step of the
  transaction.
* `Retriable`: a verification that a start relies on is there, and no `StartVerify` fails for want
  of it.
* `uKey_retriable`: a run stays within `Retriable` exactly where no id is given up, deleted or found
  missing while it is relied on (`KeepsId`).
-/

namespace LingmoAuthenticate.Session

open Lib AuthCommon MultiFactor
open UKey (Manager VerifyError UserInfo)

/-! ## The parts of a start -/

namespace UKeyTx

/-- The id that was constructed is assigned, and the signals are listened to from then on.
Source: `ukey_tx.go`, `UKeyTx.authenticate`, after `ConstructVerification`. -/
def assign (u : UKeyTx) (id : String) : UKeyTx :=
  let u := { u with verificationId := id }
  if u.listened then u else { u.listenSignal with listened := true }

/-- The attempt is begun, and its goroutine started.
Source: `ukey_tx.go`, `UKeyTx.authenticate`, from `giveStatus` on. -/
def giveStarted (u : UKeyTx) : UKeyTx :=
  let n := u.attempts + 1
  let u := { u with
    attempts := n, starting := n :: u.starting, failed := false, ended := false,
    settled := false, reported := false }
  u.giveStatus n defaultVerifyStatusStarted

/-- A start that finds the key initialised. -/
theorem authenticate_of_hasInit {u : UKeyTx} (h : u.hasInit = true)
    (constructed : Except String String) : u.authenticate constructed = u.giveStarted := by
  simp only [authenticate, construct, h, if_true, giveStarted]

/-- A start with a new verification. -/
theorem authenticate_ok {u : UKeyTx} (h : u.hasInit = false) (id : String) :
    u.authenticate (.ok id) = (assign { u with hasInit := true } id).giveStarted := by
  cases hl : u.listened
  all_goals simp [authenticate, construct, assign, giveStarted, listenSignal, h, hl]

/-- A start for which no verification could be constructed. -/
theorem authenticate_error {u : UKeyTx} (h : u.hasInit = false) (err : String) :
    u.authenticate (.error err) = { u with hasInit := true } := by
  simp only [authenticate, construct, h, Bool.false_eq_true, if_false]

@[simp] theorem assign_verificationId (u : UKeyTx) (id : String) :
    (u.assign id).verificationId = id := by
  unfold assign
  dsimp only
  split_ifs <;> rfl

@[simp] theorem assign_hasInit (u : UKeyTx) (id : String) : (u.assign id).hasInit = u.hasInit := by
  unfold assign
  dsimp only
  split_ifs <;> rfl

@[simp] theorem assign_attempts (u : UKeyTx) (id : String) :
    (u.assign id).attempts = u.attempts := by
  unfold assign
  dsimp only
  split_ifs <;> rfl

@[simp] theorem giveStarted_verificationId (u : UKeyTx) :
    u.giveStarted.verificationId = u.verificationId := rfl

@[simp] theorem giveStarted_hasInit (u : UKeyTx) : u.giveStarted.hasInit = u.hasInit := rfl

/-- A step of the transaction that is no start keeps the id, and does not set `hasInit`. -/
theorem step_keeps {u u' : UKeyTx} {a : UKeyAction} (h : u.step a = some u')
    (ha : ∀ constructed, a ≠ .authenticate constructed) :
    u'.verificationId = u.verificationId ∧ (u'.hasInit = true → u.hasInit = true) := by
  cases a with
  | authenticate constructed => exact absurd rfl (ha constructed)
  | startVerify n err =>
      simp only [step, Option.ite_none_right_eq_some, Option.some.injEq] at h
      obtain ⟨-, rfl⟩ := h
      cases err <;> exact ⟨rfl, id⟩
  | verifyResult id ok =>
      simp only [step, Option.ite_none_right_eq_some, Option.some.injEq] at h
      obtain ⟨-, rfl⟩ := h
      unfold verifyResult
      split_ifs <;> exact ⟨rfl, fun h => h⟩
  | state id s =>
      simp only [step, Option.ite_none_right_eq_some, Option.some.injEq] at h
      obtain ⟨-, rfl⟩ := h
      unfold state
      dsimp only
      rw [endTx_closeVerify]
      split_ifs <;> first | exact ⟨rfl, fun h => h⟩ | exact ⟨rfl, fun h => by cases h⟩
  | setPassword err =>
      obtain rfl : u.called u.attempts err = u' := Option.some.inj h
      cases err <;> exact ⟨rfl, id⟩
  | endTx ct =>
      obtain rfl : u.endTx ct = u' := Option.some.inj h
      unfold endTx
      dsimp only
      split_ifs <;> exact ⟨rfl, fun h => h⟩
  | setLockState s =>
      rw [step, setLockState_eq, Option.some.injEq] at h
      subst h
      exact ⟨rfl, id⟩

end UKeyTx

/-! ## The transaction and the manager -/

/-- How far the goroutine of an attempt is: it is about to read the id for a call, its call with the
id that it has read is on the way, or it is about to give a status. -/
inductive StartStage where
  | startVerify
  | starting (id : String)
  | stopVerify (err : VerifyError)
  | stopping (err : VerifyError) (id : String)
  | giveStatus (err : VerifyError)
  deriving DecidableEq, Repr

/-- The goroutine of an attempt, with what it does next.
Source: `ukey_tx.go`, `UKeyTx.authenticate`. -/
structure UKeyStart where
  attempt : ℕ
  stage : StartStage
  deriving DecidableEq, Repr

/-- A key transaction and the manager. Of the starts, `checked` have found the factor idle and
unlocked and not yet looked at `hasInit`, `constructing` have set it and wait for
`ConstructVerification`, to which `constructed` has returned an id that is not assigned yet, and
`ready` have an id and not yet begun their attempt. Of the goroutines of `end`, `stopping` have not
yet read the id for `StopVerify`, and `stops` are the ids of the calls on the way. -/
structure UKeyVerify where
  tx : UKeyTx
  manager : Manager
  checked : ℕ
  constructing : ℕ
  constructed : List String
  ready : ℕ
  goroutines : List UKeyStart
  stopping : ℕ
  stops : List String

/-- What happens; `device` is the error of a device, if any. `conf` is the configuration of the
factor, or the error of looking for it. -/
inductive UKeyVerifyAction where
  | check
  | authenticate
  | construct (username : String) (conf : Except String AuthTypeConfig) (device : Option String)
      (user : Except String UserInfo)
  | assign (id : String)
  | giveStarted
  | goroutine (g : UKeyStart) (device : Option String)
  | setPassword (device : Option String)
  | verifyResult (id : String) (ok : Bool)
  | state (id : String) (s : UKeyState)
  | endTx (ct : CloseType)
  | readStop
  | stopVerify (id : String) (device : Option String)
  | setLockState (s : LockState)
  | otherConstruct (serviceName username : String) (useDefaultService : Bool)
      (device : Option String) (user : Except String UserInfo)
  | otherStop (id : String) (device : Option String)

namespace UKeyVerify

/-- A new transaction, beside a manager in any state. -/
def start (manager : Manager) (lockState : LockState) : UKeyVerify :=
  ⟨.new lockState, manager, 0, 0, [], 0, [], 0, []⟩

/-- A step of the transaction alone. -/
def txStep (w : UKeyVerify) (a : UKeyAction) : Option UKeyVerify :=
  (w.tx.step a).map fun tx => { w with tx }

/-- The controller finds the factor idle and unlocked. Source: `normal_verify.go` and
`multifactor_verify.go`, the loop of `authenticate`, before the call of the transaction. -/
def check (w : UKeyVerify) : Option UKeyVerify :=
  if w.tx.canStart then some { w with checked := w.checked + 1 } else none

/-- A start looks at `hasInit`, and sets it where it is not set.
Source: `ukey_tx.go`, `UKeyTx.authenticate`, its beginning. -/
def authenticate (w : UKeyVerify) : Option UKeyVerify :=
  if 0 < w.checked then
    let w := { w with checked := w.checked - 1 }
    if w.tx.hasInit then some { w with ready := w.ready + 1 }
    else some { w with tx := { w.tx with hasInit := true }, constructing := w.constructing + 1 }
  else none

/-- What `ConstructVerification` comes to, where there is a configuration to call it with.
Source: `ukey_tx.go`, `UKeyTx.authenticate`. -/
def construction (w : UKeyVerify) (username : String) (conf : Except String AuthTypeConfig)
    (device : Option String) (user : Except String UserInfo) : Manager × Except String String :=
  match conf with
  | .ok atc =>
      w.manager.constructVerification atc.service username (InitEnv.isUseDefaultService atc) device
        user
  | .error err => (w.manager, .error err)

/-- The configuration is looked for, and `ConstructVerification` called with it; a start returns
with the error of either. Source: `ukey_tx.go`, `UKeyTx.authenticate`. -/
def construct (w : UKeyVerify) (username : String) (conf : Except String AuthTypeConfig)
    (device : Option String) (user : Except String UserInfo) : Option UKeyVerify :=
  if 0 < w.constructing then
    let r := w.construction username conf device user
    let w := { w with constructing := w.constructing - 1, manager := r.1 }
    match r.2 with
    | .ok id => some { w with constructed := id :: w.constructed }
    | .error _ => some w
  else none

/-- A start assigns the id that was returned to it.
Source: `ukey_tx.go`, `UKeyTx.authenticate`. -/
def assign (w : UKeyVerify) (id : String) : Option UKeyVerify :=
  if id ∈ w.constructed then
    some { w with
      tx := w.tx.assign id, constructed := w.constructed.erase id, ready := w.ready + 1 }
  else none

/-- A start begins its attempt. Source: `ukey_tx.go`, `UKeyTx.authenticate`. -/
def giveStarted (w : UKeyVerify) : Option UKeyVerify :=
  if 0 < w.ready then
    some { w with
      tx := w.tx.giveStarted
      ready := w.ready - 1
      goroutines := ⟨w.tx.attempts + 1, .startVerify⟩ :: w.goroutines }
  else none

/-- The next step of the goroutine of an attempt, and the error of `StartVerify` if it was that.
Source: `ukey_tx.go`, `UKeyTx.authenticate`, its goroutine. -/
def goroutine (w : UKeyVerify) (g : UKeyStart) (device : Option String) :
    Option (UKeyVerify × Option VerifyError) :=
  let rest := w.goroutines.erase g
  match g.stage with
  | .startVerify =>
      some ({ w with goroutines := ⟨g.attempt, .starting w.tx.verificationId⟩ :: rest }, none)
  | .starting id =>
      match w.manager.startVerify id device with
      | none => ({ w with goroutines := rest }.txStep (.startVerify g.attempt none)).map (·, none)
      | some err =>
          some ({ w with goroutines := ⟨g.attempt, .stopVerify err⟩ :: rest }, some err)
  | .stopVerify err =>
      some ({ w with goroutines := ⟨g.attempt, .stopping err w.tx.verificationId⟩ :: rest }, none)
  | .stopping err id =>
      let manager := (w.manager.stopVerify id device).1
      some ({ w with manager, goroutines := ⟨g.attempt, .giveStatus err⟩ :: rest }, none)
  | .giveStatus err =>
      ({ w with goroutines := rest }.txStep (.startVerify g.attempt (some err.text))).map (·, none)

/-- Source: `ukey_tx.go`, `UKeyTx.end`. -/
def endTx (w : UKeyVerify) (ct : CloseType) : Option UKeyVerify :=
  let w := if ct = .closeAllResource then { w with stopping := w.stopping + 1 } else w
  w.txStep (.endTx ct)

/-- The goroutine of `end` reads the id. Source: `ukey_tx.go`, `UKeyTx.end`. -/
def readStop (w : UKeyVerify) : Option UKeyVerify :=
  if 0 < w.stopping then
    some { w with stopping := w.stopping - 1, stops := w.tx.verificationId :: w.stops }
  else none

/-- The call of the goroutine of `end` reaches the manager.
Source: `ukey_tx.go`, `UKeyTx.end`. -/
def stopVerify (w : UKeyVerify) (id : String) (device : Option String) : Option UKeyVerify :=
  if id ∈ w.stops then
    some { w with manager := (w.manager.stopVerify id device).1, stops := w.stops.erase id }
  else none

/-- One step, observed through the error of a `StartVerify`. Source: `ukey_tx.go`; the calls of the
manager are those of `ukey/interface.go`. -/
def move (w : UKeyVerify) : UKeyVerifyAction → Option (UKeyVerify × Option VerifyError)
  | .check => w.check.map (·, none)
  | .authenticate => w.authenticate.map (·, none)
  | .construct username conf device user => (w.construct username conf device user).map (·, none)
  | .assign id => (w.assign id).map (·, none)
  | .giveStarted => w.giveStarted.map (·, none)
  | .goroutine g device => if g ∈ w.goroutines then w.goroutine g device else none
  | .setPassword device =>
      let err := (w.manager.setPin w.tx.verificationId device).map VerifyError.text
      (w.txStep (.setPassword err)).map (·, none)
  | .verifyResult id ok => (w.txStep (.verifyResult id ok)).map (·, none)
  | .state id s => (w.txStep (.state id s)).map (·, none)
  | .endTx ct => (w.endTx ct).map (·, none)
  | .readStop => w.readStop.map (·, none)
  | .stopVerify id device => (w.stopVerify id device).map (·, none)
  | .setLockState s => (w.txStep (.setLockState s)).map (·, none)
  | .otherConstruct serviceName username useDefaultService device user =>
      let r := w.manager.constructVerification serviceName username useDefaultService device user
      some ({ w with manager := r.1 }, none)
  | .otherStop id device => some ({ w with manager := (w.manager.stopVerify id device).1 }, none)

/-- **A start that nothing comes in between**: its steps come to one step of the transaction, with
what the manager answers. -/
theorem run_start_alone {w : UKeyVerify} (hcan : w.tx.canStart = true) (username : String)
    (conf : Except String AuthTypeConfig) (device : Option String) (user : Except String UserInfo) :
    let r := if w.tx.hasInit then (w.manager, .ok w.tx.verificationId)
      else w.construction username conf device user
    ∃ acts os, run move w acts = some ({ w with
      tx := w.tx.authenticate r.2
      manager := r.1
      goroutines := if (w.tx.construct r.2).2 then ⟨w.tx.attempts + 1, .startVerify⟩ :: w.goroutines
        else w.goroutines }, os) := by
  intro r
  cases hinit : w.tx.hasInit with
  | true =>
      have hr : r = (w.manager, .ok w.tx.verificationId) := if_pos hinit
      refine ⟨[.check, .authenticate, .giveStarted], [none, none, none], ?_⟩
      rw [hr, UKeyTx.authenticate_of_hasInit hinit]
      simp [run, move, check, authenticate, giveStarted, UKeyTx.construct, hcan, hinit]
  | false =>
      have hr : r = w.construction username conf device user := if_neg (by simp [hinit])
      -- a construction depends on the manager alone
      have hsame : ∀ w' : UKeyVerify, w'.manager = w.manager →
          w'.construction username conf device user = w.construction username conf device user := by
        intro w' hw'
        unfold construction
        rw [hw']
      rcases hc : w.construction username conf device user with ⟨manager, err | id⟩
      · refine ⟨[.check, .authenticate, .construct username conf device user], [none, none, none], ?_⟩
        rw [hr, hc, UKeyTx.authenticate_error hinit]
        simp [run, move, check, authenticate, construct, UKeyTx.construct, hcan, hinit, hsame, hc]
      · refine ⟨[.check, .authenticate, .construct username conf device user, .assign id,
          .giveStarted], [none, none, none, none, none], ?_⟩
        rw [hr, hc, UKeyTx.authenticate_ok hinit]
        simp [run, move, check, authenticate, construct, assign, giveStarted, UKeyTx.construct, hcan,
          hinit, hsame, hc]

/-! ## What is relied on -/

/-- The id of the transaction is a key of the map. -/
def Registered (w : UKeyVerify) : Prop := w.tx.verificationId ∈ w.manager.verificationInfoMap

instance (w : UKeyVerify) : Decidable w.Registered := inferInstanceAs (Decidable (_ ∈ _))

/-- No start is between setting `hasInit` and assigning the id. -/
def Initialised (w : UKeyVerify) : Prop := w.constructing = 0 ∧ w.constructed = []

/-- The id of the transaction is relied on: `hasInit` is set and no start is to assign another one,
or an attempt is to be begun with it or is about to read it. -/
def Needed (w : UKeyVerify) : Prop :=
  (w.tx.hasInit = true ∧ w.Initialised) ∨ 0 < w.ready ∨ ∃ g ∈ w.goroutines, g.stage = .startVerify

/-- An id is relied on: it is that of the transaction, which is needed, or a call of `StartVerify`
is on the way with it. -/
def Relied (w : UKeyVerify) (id : String) : Prop :=
  (id = w.tx.verificationId ∧ w.Needed) ∨ ∃ g ∈ w.goroutines, g.stage = .starting id

/-- A verification that is relied on is there. -/
def Live (w : UKeyVerify) : Prop := ∀ id, w.Relied id → id ∈ w.manager.verificationInfoMap

/-- **The factor can be retried**: where a start would construct no verification, and none is about
to return with one, the transaction has one that is there; so it has where an attempt is to be begun
with it or is about to read its id; and no `StartVerify` fails for want of it. -/
structure Retriable (w : UKeyVerify) : Prop where
  live : w.tx.hasInit = true → w.Initialised → w.Registered
  begun : (0 < w.ready ∨ ∃ g ∈ w.goroutines, g.stage = .startVerify) → w.Registered
  found : ∀ g device w' id, w.move (.goroutine g device) ≠ some (w', some (.notFound id))

/-- No id is given up, deleted or found missing while it is relied on: a start finds `hasInit` set
only where the id of before is there, also while another one constructs; where a verification cannot
be constructed, and no other start is to assign an id, the one of before is still there; an id that
was returned is still there when it is assigned; and `StopVerify` is called for an id that nothing
relies on. -/
def KeepsId (w : UKeyVerify) : UKeyVerifyAction → Prop
  | .authenticate => 0 < w.checked → w.tx.hasInit = true → w.Registered
  | .construct username conf device user => ∀ manager err,
      w.construction username conf device user = (manager, .error err) →
        w.constructing = 1 → w.constructed = [] → w.tx.hasInit = true → w.Registered
  | .assign id => id ∈ w.constructed → id ∈ w.manager.verificationInfoMap
  | .goroutine g _ => g ∈ w.goroutines → ∀ err id, g.stage = .stopping err id → ¬ w.Relied id
  | .stopVerify id _ => id ∈ w.stops → ¬ w.Relied id
  | .otherStop id _ => ¬ w.Relied id
  | _ => True

/-- A call of `StartVerify` fails for want of its verification where it is not there. -/
theorem goroutine_notFound {w : UKeyVerify} {g : UKeyStart} {device : Option String} {id : String}
    (hg : g ∈ w.goroutines) (hstage : g.stage = .starting id)
    (hid : id ∉ w.manager.verificationInfoMap) :
    ∃ w', w.move (.goroutine g device) = some (w', some (.notFound id)) := by
  simp only [move, if_pos hg, goroutine, hstage, Manager.startVerify_of_not_mem hid]
  exact ⟨_, rfl⟩

/-- Only such a call does. -/
theorem starting_of_notFound {w w' : UKeyVerify} {g : UKeyStart} {device : Option String}
    {id : String} (h : w.move (.goroutine g device) = some (w', some (.notFound id))) :
    g ∈ w.goroutines ∧ ∃ id', g.stage = .starting id' ∧ id' ∉ w.manager.verificationInfoMap := by
  simp only [move, Option.ite_none_right_eq_some] at h
  obtain ⟨hg, h⟩ := h
  refine ⟨hg, ?_⟩
  unfold goroutine at h
  rcases hstage : g.stage with _ | id' | err | ⟨err, id'⟩ | err <;> simp only [hstage] at h
  · cases h
  · refine ⟨id', rfl, ?_⟩
    intro hid
    rw [Manager.startVerify_of_mem hid] at h
    rcases device with _ | msg
    · obtain ⟨_, -, heq⟩ := Option.map_eq_some_iff.mp h
      cases heq
    · cases h
  · cases h
  · cases h
  · obtain ⟨_, -, heq⟩ := Option.map_eq_some_iff.mp h
    cases heq

/-- Whether the factor can be retried is whether what is relied on is there. -/
theorem retriable_iff_live {w : UKeyVerify} : w.Retriable ↔ w.Live := by
  constructor
  · rintro ⟨hlive, hbegun, hfound⟩ id (⟨rfl, ⟨hinit, hno⟩ | hneed⟩ | ⟨g, hg, hstage⟩)
    · exact hlive hinit hno
    · exact hbegun hneed
    · by_contra hid
      obtain ⟨w', hw'⟩ : ∃ w', w.move (.goroutine g none) = some (w', some (.notFound id)) :=
        goroutine_notFound hg hstage hid
      exact hfound g none w' id hw'
  · intro h
    refine ⟨fun hinit hno => h _ (.inl ⟨rfl, .inl ⟨hinit, hno⟩⟩), fun hneed => h _ (.inl ⟨rfl,
      .inr hneed⟩), ?_⟩
    intro g device w' id hmove
    obtain ⟨hg, id', hstage, hid⟩ := starting_of_notFound hmove
    exact hid (h id' (.inr ⟨g, hg, hstage⟩))

/-! ## One step -/

variable {w w' : UKeyVerify}

/-- The ways in which a step goes, each with what it has found and the state that it leaves, and the
error of a `StartVerify` that fails: the steps of the starts, of the goroutines, of the transaction,
of the calls of `StopVerify`, and the calls of other clients. -/
inductive Next (w : UKeyVerify) : UKeyVerifyAction → UKeyVerify → Option VerifyError → Prop
  | check : Next w .check { w with checked := w.checked + 1 } none
  | initialised (hpos : 0 < w.checked) (hinit : w.tx.hasInit = true) :
      Next w .authenticate { w with checked := w.checked - 1, ready := w.ready + 1 } none
  | uninitialised (hpos : 0 < w.checked) (hinit : w.tx.hasInit = false) :
      Next w .authenticate
        { w with
          tx := { w.tx with hasInit := true }, checked := w.checked - 1
          constructing := w.constructing + 1 } none
  | constructed {username : String} {conf : Except String AuthTypeConfig} {device : Option String}
      {user : Except String UserInfo} {manager : Manager} {id : String} (hpos : 0 < w.constructing)
      (hc : w.construction username conf device user = (manager, .ok id)) :
      Next w (.construct username conf device user)
        { w with
          manager, constructing := w.constructing - 1, constructed := id :: w.constructed } none
  | refused {username : String} {conf : Except String AuthTypeConfig} {device : Option String}
      {user : Except String UserInfo} {manager : Manager} {err : String} (hpos : 0 < w.constructing)
      (hc : w.construction username conf device user = (manager, .error err)) :
      Next w (.construct username conf device user)
        { w with manager, constructing := w.constructing - 1 } none
  | assign {id : String} (hid : id ∈ w.constructed) :
      Next w (.assign id)
        { w with
          tx := w.tx.assign id, constructed := w.constructed.erase id, ready := w.ready + 1 } none
  | giveStarted (hpos : 0 < w.ready) :
      Next w .giveStarted
        { w with
          tx := w.tx.giveStarted, ready := w.ready - 1
          goroutines := ⟨w.tx.attempts + 1, .startVerify⟩ :: w.goroutines } none
  | readStart {g : UKeyStart} {device : Option String} (hg : g ∈ w.goroutines)
      (hstage : g.stage = .startVerify) :
      Next w (.goroutine g device)
        { w with
          goroutines := ⟨g.attempt, .starting w.tx.verificationId⟩ :: w.goroutines.erase g } none
  | started {g : UKeyStart} {device : Option String} {id : String} {w' : UKeyVerify}
      (hg : g ∈ w.goroutines) (hstage : g.stage = .starting id)
      (hcall : w.manager.startVerify id device = none)
      (hs : txStep { w with goroutines := w.goroutines.erase g } (.startVerify g.attempt none) =
        some w') : Next w (.goroutine g device) w' none
  | failed {g : UKeyStart} {device : Option String} {id : String} {err : VerifyError}
      (hg : g ∈ w.goroutines) (hstage : g.stage = .starting id)
      (hcall : w.manager.startVerify id device = some err) :
      Next w (.goroutine g device)
        { w with goroutines := ⟨g.attempt, .stopVerify err⟩ :: w.goroutines.erase g } (some err)
  | readStopped {g : UKeyStart} {device : Option String} {err : VerifyError} (hg : g ∈ w.goroutines)
      (hstage : g.stage = .stopVerify err) :
      Next w (.goroutine g device)
        { w with goroutines :=
            ⟨g.attempt, .stopping err w.tx.verificationId⟩ :: w.goroutines.erase g } none
  | stopped {g : UKeyStart} {device : Option String} {err : VerifyError} {id : String}
      (hg : g ∈ w.goroutines) (hstage : g.stage = .stopping err id) :
      Next w (.goroutine g device)
        { w with
          manager := w.manager.deleteVerificationInfo id
          goroutines := ⟨g.attempt, .giveStatus err⟩ :: w.goroutines.erase g } none
  | gave {g : UKeyStart} {device : Option String} {err : VerifyError} {w' : UKeyVerify}
      (hg : g ∈ w.goroutines) (hstage : g.stage = .giveStatus err)
      (hs : txStep { w with goroutines := w.goroutines.erase g }
        (.startVerify g.attempt (some err.text)) = some w') : Next w (.goroutine g device) w' none
  | setPassword {device err : Option String} {w' : UKeyVerify}
      (hs : w.txStep (.setPassword err) = some w') : Next w (.setPassword device) w' none
  | verifyResult {id : String} {ok : Bool} {w' : UKeyVerify}
      (hs : w.txStep (.verifyResult id ok) = some w') : Next w (.verifyResult id ok) w' none
  | state {id : String} {s : UKeyState} {w' : UKeyVerify} (hs : w.txStep (.state id s) = some w') :
      Next w (.state id s) w' none
  | endTx {ct : CloseType} {w' : UKeyVerify} (hs : w.endTx ct = some w') :
      Next w (.endTx ct) w' none
  | readStop (hpos : 0 < w.stopping) :
      Next w .readStop
        { w with stopping := w.stopping - 1, stops := w.tx.verificationId :: w.stops } none
  | stopVerify {id : String} {device : Option String} (hid : id ∈ w.stops) :
      Next w (.stopVerify id device)
        { w with manager := w.manager.deleteVerificationInfo id, stops := w.stops.erase id } none
  | setLockState {s : LockState} {w' : UKeyVerify} (hs : w.txStep (.setLockState s) = some w') :
      Next w (.setLockState s) w' none
  | otherConstruct {serviceName username : String} {useDefaultService : Bool}
      {device : Option String} {user : Except String UserInfo} :
      Next w (.otherConstruct serviceName username useDefaultService device user)
        { w with manager := (w.manager.constructVerification serviceName username
            useDefaultService device user).1 } none
  | otherStop {id : String} {device : Option String} :
      Next w (.otherStop id device) { w with manager := w.manager.deleteVerificationInfo id } none

/-- The next step of a goroutine. -/
theorem next_of_goroutine {g : UKeyStart} {device : Option String} {o : Option VerifyError}
    (hg : g ∈ w.goroutines) (hs : w.goroutine g device = some (w', o)) :
    w.Next (.goroutine g device) w' o := by
  unfold goroutine at hs
  rcases hstage : g.stage with _ | id | err | ⟨err, id⟩ | err <;> simp only [hstage] at hs
  · cases hs
    exact .readStart hg hstage
  · rcases hcall : w.manager.startVerify id device with _ | err <;> rw [hcall] at hs
    · obtain ⟨hw₂, rfl⟩ := observed_eq_some.mp hs
      exact .started hg hstage hcall hw₂
    · cases hs
      exact .failed hg hstage hcall
  · cases hs
    exact .readStopped hg hstage
  · cases hs
    exact .stopped hg hstage
  · obtain ⟨hw₂, rfl⟩ := observed_eq_some.mp hs
    exact .gave hg hstage hw₂

/-- The next step of a start in the transaction. -/
theorem next_of_start {a : UKeyVerifyAction} {o : Option VerifyError}
    (ha : a = .check ∨ a = .authenticate ∨ (∃ username conf device user,
      a = .construct username conf device user) ∨ (∃ id, a = .assign id) ∨ a = .giveStarted)
    (hs : w.move a = some (w', o)) : w.Next a w' o := by
  rcases ha with rfl | rfl | ⟨username, conf, device, user, rfl⟩ | ⟨id, rfl⟩ | rfl
  · obtain ⟨hw₂, rfl⟩ := observed_eq_some.mp hs
    obtain ⟨-, heq⟩ := Option.ite_none_right_eq_some.mp hw₂
    cases heq
    exact .check
  · obtain ⟨hw₂, rfl⟩ := observed_eq_some.mp hs
    obtain ⟨hpos, hw₂⟩ := Option.ite_none_right_eq_some.mp hw₂
    dsimp only at hw₂
    split_ifs at hw₂ with hinit
    · cases hw₂
      exact .initialised hpos hinit
    · cases hw₂
      exact .uninitialised hpos (by simpa using hinit)
  · obtain ⟨hw₂, rfl⟩ := observed_eq_some.mp hs
    obtain ⟨hpos, hw₂⟩ := Option.ite_none_right_eq_some.mp hw₂
    rcases hc : w.construction username conf device user with ⟨manager, err | id⟩ <;>
      rw [hc] at hw₂ <;> cases hw₂
    · exact .refused hpos hc
    · exact .constructed hpos hc
  · obtain ⟨hw₂, rfl⟩ := observed_eq_some.mp hs
    obtain ⟨hid, heq⟩ := Option.ite_none_right_eq_some.mp hw₂
    cases heq
    exact .assign hid
  · obtain ⟨hw₂, rfl⟩ := observed_eq_some.mp hs
    obtain ⟨hpos, heq⟩ := Option.ite_none_right_eq_some.mp hw₂
    cases heq
    exact .giveStarted hpos

/-- **The inversion**: a step that is taken goes in one of these ways. -/
theorem next_of_move {a : UKeyVerifyAction} {o : Option VerifyError}
    (hs : w.move a = some (w', o)) : w.Next a w' o := by
  cases a with
  | check | authenticate | construct | assign | giveStarted => exact next_of_start (by simp) hs
  | goroutine g device =>
      obtain ⟨hg, hs⟩ := Option.ite_none_right_eq_some.mp hs
      exact next_of_goroutine hg hs
  | setPassword device =>
      rw [move] at hs
      obtain ⟨hw₂, rfl⟩ := observed_eq_some.mp hs
      exact .setPassword hw₂
  | verifyResult id ok =>
      obtain ⟨hw₂, rfl⟩ := observed_eq_some.mp hs
      exact .verifyResult hw₂
  | state id s =>
      obtain ⟨hw₂, rfl⟩ := observed_eq_some.mp hs
      exact .state hw₂
  | endTx ct =>
      rw [move] at hs
      obtain ⟨hw₂, rfl⟩ := observed_eq_some.mp hs
      exact .endTx hw₂
  | readStop =>
      obtain ⟨hw₂, rfl⟩ := observed_eq_some.mp hs
      obtain ⟨hpos, heq⟩ := Option.ite_none_right_eq_some.mp hw₂
      cases heq
      exact .readStop hpos
  | stopVerify id device =>
      obtain ⟨hw₂, rfl⟩ := observed_eq_some.mp hs
      obtain ⟨hid, heq⟩ := Option.ite_none_right_eq_some.mp hw₂
      cases heq
      exact .stopVerify hid
  | setLockState s =>
      obtain ⟨hw₂, rfl⟩ := observed_eq_some.mp hs
      exact .setLockState hw₂
  | otherConstruct serviceName username useDefaultService device user =>
      cases hs
      exact .otherConstruct
  | otherStop id device =>
      cases hs
      exact .otherStop

/-- The end of the transaction: with `closeAllResource` a verification is to be stopped. -/
theorem endTx_eq_some {ct : CloseType} (hs : w.endTx ct = some w') :
    ∃ n, txStep { w with stopping := w.stopping + n } (.endTx ct) = some w' ∧
      (ct = .closeAllResource → n = 1) := by
  unfold endTx at hs
  dsimp only at hs
  split_ifs at hs with hct
  · exact ⟨1, hs, fun _ => rfl⟩
  · exact ⟨0, hs, fun h => absurd h hct⟩

/-- A step that deletes nothing, and relies on nothing that was not relied on or is there. -/
theorem Live.of_keeps (h : w.Live)
    (hmem : ∀ id, id ∈ w.manager.verificationInfoMap → id ∈ w'.manager.verificationInfoMap)
    (hrelied : ∀ id, w'.Relied id → w.Relied id ∨ id ∈ w'.manager.verificationInfoMap) :
    w'.Live := by
  intro id hid
  rcases hrelied id hid with hid | hid
  · exact hmem id (h id hid)
  · exact hid

/-- A step of the transaction that is no start, beside goroutines that were there. -/
theorem Live.txStep (h : w.Live) {a : UKeyAction} {w₁ : UKeyVerify} (hs : w₁.txStep a = some w')
    (ha : ∀ constructed, a ≠ .authenticate constructed) (htx : w₁.tx = w.tx)
    (hmanager : w₁.manager = w.manager) (hready : w₁.ready = w.ready)
    (hinit : w₁.Initialised ↔ w.Initialised) (hgs : ∀ g ∈ w₁.goroutines, g ∈ w.goroutines) :
    w'.Live := by
  obtain ⟨tx, htxs, rfl⟩ := Option.map_eq_some_iff.mp hs
  rw [htx] at htxs
  obtain ⟨hid, hset⟩ := UKeyTx.step_keeps htxs ha
  refine h.of_keeps (fun id hmem => hmanager ▸ hmem) ?_
  rintro id (⟨rfl, hneed⟩ | ⟨g, hg, hstage⟩)
  · refine .inl (.inl ⟨hid, ?_⟩)
    rcases hneed with ⟨h₁, h₂⟩ | h₁ | ⟨g, hg, hstage⟩
    · exact .inl ⟨hset h₁, hinit.mp h₂⟩
    · exact .inr (.inl (hready ▸ h₁))
    · exact .inr (.inr ⟨g, hgs g hg, hstage⟩)
  · exact .inl (.inr ⟨g, hgs g hg, hstage⟩)

/-- A verification is stopped, by a step that relies on what was relied on. -/
theorem live_stopped (h : w.Live) {id : String}
    (hmanager : w'.manager = w.manager.deleteVerificationInfo id)
    (hrelied : ∀ id, w'.Relied id ↔ w.Relied id) : w'.Live ↔ ¬ w.Relied id := by
  constructor
  · intro hlive hid
    have hmem := hlive id ((hrelied id).mpr hid)
    rw [hmanager, Manager.mem_deleteVerificationInfo] at hmem
    exact hmem.1 rfl
  · intro hno id' hid'
    rw [hrelied] at hid'
    rw [hmanager, Manager.mem_deleteVerificationInfo]
    refine ⟨?_, h id' hid'⟩
    rintro rfl
    exact hno hid'

/-- A verification that could not be constructed leaves the manager as it was. -/
theorem construction_error {username err : String} {conf : Except String AuthTypeConfig}
    {device : Option String} {user : Except String UserInfo} {manager : Manager}
    (h : w.construction username conf device user = (manager, .error err)) :
    manager = w.manager := by
  unfold construction at h
  rcases conf with err' | atc
  · cases h
    rfl
  · exact Manager.constructVerification_error h

/-- A verification that was constructed is there, beside the others. -/
theorem construction_ok {username id : String} {conf : Except String AuthTypeConfig}
    {device : Option String} {user : Except String UserInfo} {manager : Manager}
    (h : w.construction username conf device user = (manager, .ok id)) {id' : String} :
    id' ∈ manager.verificationInfoMap ↔ id' = id ∨ id' ∈ w.manager.verificationInfoMap := by
  unfold construction at h
  rcases conf with err' | atc
  · cases h
  · exact Manager.mem_constructVerification_ok h

/-- A goroutine goes on at another stage. -/
theorem exists_stage {g : UKeyStart} {stage stage' : StartStage} (hg : g.stage ≠ stage)
    (hne : stage' ≠ stage) :
    (∃ g' ∈ (⟨g.attempt, stage'⟩ :: w.goroutines.erase g : List UKeyStart), g'.stage = stage) ↔
      ∃ g' ∈ w.goroutines, g'.stage = stage := by
  constructor
  · rintro ⟨g', hg', hstage⟩
    rcases List.mem_cons.mp hg' with rfl | hg'
    · exact absurd hstage hne
    · exact ⟨g', List.mem_of_mem_erase hg', hstage⟩
  · rintro ⟨g', hg', hstage⟩
    refine ⟨g', List.mem_cons_of_mem _ ((List.mem_erase_of_ne ?_).mpr hg'), hstage⟩
    rintro rfl
    exact hg hstage

/-- A goroutine that relies on nothing goes on to rely on nothing. -/
theorem relied_goroutine {g : UKeyStart} {stage : StartStage}
    (hold : g.stage ≠ .startVerify ∧ ∀ id, g.stage ≠ .starting id)
    (hnew : stage ≠ .startVerify ∧ ∀ id, stage ≠ .starting id) (manager : Manager) (id : String) :
    Relied { w with
      manager := manager, goroutines := ⟨g.attempt, stage⟩ :: w.goroutines.erase g } id ↔
        w.Relied id := by
  refine or_congr (and_congr_right fun _ => or_congr_right (or_congr_right ?_)) ?_
  · exact exists_stage hold.1 hnew.1
  · exact exists_stage (hold.2 id) (hnew.2 id)

/-- **One step**: what is relied on stays there exactly where the step keeps the id. -/
theorem live_step (h : w.Live) {a : UKeyVerifyAction} {o : Option VerifyError}
    (hs : w.move a = some (w', o)) : w'.Live ↔ w.KeepsId a := by
  have herase : ∀ g, ∀ g' ∈ w.goroutines.erase g, g' ∈ w.goroutines :=
    fun g g' => List.mem_of_mem_erase
  cases next_of_move hs with
  | check => exact iff_of_true h trivial
  | initialised hpos hinit =>
      -- the start relies on the id of before
      constructor
      · intro hlive _ _
        exact hlive _ (.inl ⟨rfl, .inr (.inl (Nat.succ_pos _))⟩)
      · intro hkeep
        refine h.of_keeps (fun _ => id) ?_
        rintro id (⟨rfl, -⟩ | hcall)
        · exact .inr (hkeep hpos hinit)
        · exact .inl (.inr hcall)
  | uninitialised hpos hinit =>
      refine iff_of_true (h.of_keeps (fun _ => id) ?_) fun _ htrue =>
        absurd (hinit.symm.trans htrue) (by decide)
      rintro id (⟨rfl, ⟨-, hno⟩ | hneed⟩ | hcall)
      · exact absurd hno.1 (Nat.succ_ne_zero _)
      · exact .inl (.inl ⟨rfl, .inr hneed⟩)
      · exact .inl (.inr hcall)
  | @constructed username conf device user manager id hpos hc =>
      refine iff_of_true (h.of_keeps ?_ ?_) ?_
      · intro id' hid'
        exact (construction_ok hc).mpr (.inr hid')
      · rintro id' (⟨rfl, ⟨-, hno⟩ | hneed⟩ | hcall)
        · exact absurd hno.2 (List.cons_ne_nil _ _)
        · exact .inl (.inl ⟨rfl, .inr hneed⟩)
        · exact .inl (.inr hcall)
      · intro m err herr
        rw [hc] at herr
        cases herr
  | @refused username conf device user manager err hpos hc =>
      obtain rfl := construction_error hc
      constructor
      · intro hlive _ _ _ hone hnil hinit
        refine hlive _ (.inl ⟨rfl, .inl ⟨hinit, ?_, hnil⟩⟩)
        show w.constructing - 1 = 0
        omega
      · intro hkeep
        refine h.of_keeps (fun _ => id) ?_
        rintro id (⟨rfl, ⟨hinit, hzero, hnil⟩ | hneed⟩ | hcall)
        · refine .inr (hkeep _ err hc ?_ hnil hinit)
          have hle : w.constructing - 1 = 0 := hzero
          omega
        · exact .inl (.inl ⟨rfl, .inr hneed⟩)
        · exact .inl (.inr hcall)
  | @assign id hid =>
      constructor
      · intro hlive _
        refine hlive id (.inl ⟨?_, .inr (.inl (Nat.succ_pos _))⟩)
        exact (UKeyTx.assign_verificationId _ _).symm
      · intro hkeep
        refine h.of_keeps (fun _ hmem => hmem) ?_
        rintro id' (⟨rfl, -⟩ | hcall)
        · right
          rw [UKeyTx.assign_verificationId]
          exact hkeep hid
        · exact .inl (.inr hcall)
  | giveStarted hpos =>
      refine iff_of_true (h.of_keeps (fun _ => id) ?_) trivial
      have hneed : w.Needed := .inr (.inl hpos)
      rintro id (⟨rfl, -⟩ | ⟨g, hg, hstage⟩)
      · exact .inl (.inl ⟨rfl, hneed⟩)
      · rcases List.mem_cons.mp hg with rfl | hg
        · cases hstage
        · exact .inl (.inr ⟨g, hg, hstage⟩)
  | @readStart g device hg hstage =>
      have hneed : w.Needed := .inr (.inr ⟨g, hg, hstage⟩)
      refine iff_of_true (h.of_keeps (fun _ => id) ?_) ?_
      · rintro id (⟨rfl, -⟩ | ⟨g', hg', hstage'⟩)
        · exact .inl (.inl ⟨rfl, hneed⟩)
        · rcases List.mem_cons.mp hg' with rfl | hg'
          · cases hstage'
            exact .inl (.inl ⟨rfl, hneed⟩)
          · exact .inl (.inr ⟨g', herase g g' hg', hstage'⟩)
      · intro _ err id hstop
        cases hstage.symm.trans hstop
  | @started g device id _ hg hstage hcall hstep =>
      refine iff_of_true (h.txStep hstep (by rintro c ⟨⟩) rfl rfl rfl Iff.rfl (herase g)) ?_
      intro _ err id hstop
      cases hstage.symm.trans hstop
  | @failed g device id err hg hstage hcall =>
      refine iff_of_true (h.of_keeps (fun _ hmem => hmem) ?_) ?_
      · have hin : ∀ stage, stage ≠ StartStage.stopVerify err →
            (∃ g' ∈ (⟨g.attempt, .stopVerify err⟩ :: w.goroutines.erase g : List UKeyStart),
              g'.stage = stage) → ∃ g' ∈ w.goroutines, g'.stage = stage := by
          rintro stage hne ⟨g', hg', hstage'⟩
          rcases List.mem_cons.mp hg' with rfl | hg'
          · exact absurd hstage'.symm hne
          · exact ⟨g', herase g g' hg', hstage'⟩
        rintro id' (⟨rfl, hneed⟩ | hcall)
        · refine .inl (.inl ⟨rfl, hneed.imp_right (Or.imp_right (hin _ ?_))⟩)
          rintro ⟨⟩
        · refine .inl (.inr (hin _ ?_ hcall))
          rintro ⟨⟩
      · intro _ err id hstop
        cases hstage.symm.trans hstop
  | @readStopped g device err hg hstage =>
      refine iff_of_true (h.of_keeps (fun _ => id) fun id hid => .inl ?_) ?_
      · exact (relied_goroutine (by simp [hstage]) (by simp) w.manager id).mp hid
      · intro _ err id hstop
        cases hstage.symm.trans hstop
  | @stopped g device err id hg hstage =>
      refine (live_stopped h rfl (relied_goroutine (by simp [hstage]) (by simp) _)).trans ?_
      constructor
      · intro hno _ err' id' hstage'
        cases hstage.symm.trans hstage'
        exact hno
      · exact fun hno => hno hg err id hstage
  | @gave g device err _ hg hstage hstep =>
      refine iff_of_true (h.txStep hstep (by rintro c ⟨⟩) rfl rfl rfl Iff.rfl (herase g)) ?_
      intro _ err id hstop
      cases hstage.symm.trans hstop
  | setPassword hstep | verifyResult hstep | state hstep | setLockState hstep =>
      exact iff_of_true (h.txStep hstep (by rintro c ⟨⟩) rfl rfl rfl Iff.rfl fun _ hg => hg) trivial
  | endTx hstep =>
      obtain ⟨n, hstep, -⟩ := endTx_eq_some hstep
      exact iff_of_true (h.txStep hstep (by rintro c ⟨⟩) rfl rfl rfl Iff.rfl fun _ hg => hg) trivial
  | readStop hpos => exact iff_of_true h trivial
  | @stopVerify id device hid =>
      have hiff : Live { w with
          manager := w.manager.deleteVerificationInfo id, stops := w.stops.erase id } ↔
          ¬ w.Relied id := live_stopped h rfl fun _ => Iff.rfl
      exact hiff.trans ⟨fun hno _ => hno, fun hno => hno hid⟩
  | otherConstruct =>
      refine iff_of_true (h.of_keeps ?_ fun _ => .inl) trivial
      intro id hmem
      exact Manager.mem_constructVerification hmem _ _ _ _ _
  | @otherStop id device =>
      have hiff : Live { w with manager := w.manager.deleteVerificationInfo id } ↔
          ¬ w.Relied id := live_stopped h rfl fun _ => Iff.rfl
      exact hiff

/-! ## Whole runs -/

/-- The condition says nothing of a step that cannot be taken. -/
theorem keepsId_of_stuck {a : UKeyVerifyAction} (hs : w.move a = none) : w.KeepsId a := by
  cases a with
  | authenticate =>
      intro hpos
      simp only [move, authenticate, if_pos hpos, Option.map_eq_none_iff] at hs
      split_ifs at hs
  | construct username conf device user =>
      intro manager err hc hone
      have hpos : 0 < w.constructing := by omega
      simp only [move, construct, if_pos hpos, hc] at hs
      cases hs
  | assign id =>
      intro hid
      simp only [move, assign, if_pos hid] at hs
      cases hs
  | goroutine g device =>
      intro hg err id hstage
      simp only [move, if_pos hg, goroutine, hstage] at hs
      cases hs
  | stopVerify id device =>
      intro hid
      simp only [move, stopVerify, if_pos hid] at hs
      cases hs
  | otherStop id device => cases hs
  | _ => trivial

/-- **When a key factor can be retried**: over every run of a transaction against a manager, the
factor can be retried in every state exactly where no id is given up, deleted or found missing while
it is relied on. -/
theorem uKey_retriable (manager : Manager) (lockState : LockState) (acts : List UKeyVerifyAction) :
    (∀ cs t os, cs <+: acts → run move (start manager lockState) cs = some (t, os) →
        t.Retriable) ↔ Along move KeepsId (start manager lockState) acts := by
  have hstart : (start manager lockState).Live := by
    rintro id (⟨-, ⟨hinit, -⟩ | hpos | ⟨g, hg, -⟩⟩ | ⟨g, hg, -⟩)
    · cases hinit
    · cases hpos
    · cases hg
    · cases hg
  simp only [retriable_iff_live]
  exact reached_iff_along (J := fun _ => True) (fun _ _ _ _ _ _ => trivial)
    (fun _ _ _ _ _ h hs => live_step h hs) (fun _ _ => keepsId_of_stuck) trivial hstart acts

/-- A start of a user with a key, whose `StartVerify` comes to what the device answers. -/
def startOnce (device : Option String) (id : String) : List UKeyVerifyAction :=
  [.check, .authenticate, .construct "user" (.ok ⟨.usbKey, "*"⟩) none (.ok ⟨"uuid", ""⟩),
    .assign id, .giveStarted, .goroutine ⟨1, .startVerify⟩ none, .goroutine ⟨1, .starting id⟩ device]

/-- The device refuses to verify once. The goroutine stops the verification, the factor is ended,
and the next start relies on the verification that is gone. -/
theorem stopped_verification_reused :
    ¬ ∀ manager lockState acts t os,
      run move (start manager lockState) acts = some (t, os) → t.Retriable := by
  intro h
  have hbegun := (h .new .unlock
    (startOnce (some "busy") "1" ++ [.goroutine ⟨1, .stopVerify (.device "busy")⟩ none,
      .goroutine ⟨1, .stopping (.device "busy") "1"⟩ none,
      .goroutine ⟨1, .giveStatus (.device "busy")⟩ none, .endTx .closeVerify, .check,
      .authenticate]) _ _ rfl).begun
  exact absurd (hbegun (.inl (by decide))) (by decide)

end UKeyVerify

end LingmoAuthenticate.Session
