import Mathlib.Data.Int.Bitwise
import LingmoAuthenticate.Session.Crypto
import LingmoAuthenticate.Session.FirstStart

/-!
# What a start reports: `authenticate` of the two controllers

A start goes over the transactions that its flag selects, starts those that are idle and not locked,
and returns how many of them it could not start. A factor has started where it is given the status
`Started`.

* `Tx.authenticate_spec`: where `Started` is given, for each kind and each way the calls of the
  start turn out. A transaction that returns an error has not given it, and one that returns none has,
  except a password transaction whose PAM did not start.
* `StartLoop.unstarted_run`: the value returned falls short of the factors that did not start by
  those transactions.
* `authenticate_counts_iff`: when the value is the number of factors that did not start.
-/

namespace LingmoAuthenticate.Session

open Lib AuthCommon

/-! ## Starting one transaction -/

/-- How the calls that a start makes turn out; each kind of transaction makes some of them.
`constructed` is the answer of `ConstructVerification`, or the error before it. -/
structure StartCalls where
  pamErr : Option String
  claimErr : Option String
  constructed : Except String String

/-- The error of an answer. -/
def errorOf : Except String String → Option String
  | .error err => some err
  | .ok _ => none

/-- The transaction after the call, and the error that it returns. A camera waits for its last
attempt, which may be for ever.
Source: `tx.go`, `Tx`, and `authenticate` of `password_tx.go`, `fingerprint_tx.go`, `face_tx.go`,
`iris_tx.go`, `ukey_tx.go` and `custom_tx.go`. -/
def Tx.authenticate (calls : StartCalls) : Tx → Option (Tx × Option String)
  | .password pt => some (.password (pt.authenticate calls.pamErr.isNone), none)
  | .fingerprint ft => some (.fingerprint (ft.authenticate calls.claimErr), calls.claimErr)
  | .face ft => ft.authenticate.map fun ft => (.face ft, none)
  | .iris ft => ft.authenticate.map fun ft => (.iris ft, none)
  | .uKey u =>
      some (.uKey (u.authenticate calls.constructed),
        if u.hasInit then none else errorOf calls.constructed)
  | .custom tx => some (.custom tx.authenticate, none)

/-- Among the statuses is `Started`. -/
def gaveStarted (given : List Given) : Bool := given.any fun g => g.status.s = .started

/-- PAM does not start for a transaction that asks it. -/
def Tx.PamFails (tx : Tx) (calls : StartCalls) : Prop :=
  tx.kind = .password ∧ calls.pamErr.isSome

instance (tx : Tx) (calls : StartCalls) : Decidable (tx.PamFails calls) :=
  inferInstanceAs (Decidable (_ ∧ _))

/-- A camera that is started gives `Started`. -/
theorem CameraTx.authenticate_started {c : CameraType} {ft ft' : CameraTx c}
    (h : ft.authenticate = some ft') (hsent : ft.sent = []) : gaveStarted ft'.sent = true := by
  obtain ⟨-, h⟩ := Option.ite_none_right_eq_some.mp h
  cases h
  simp only [CameraTx.giveStatus, BaseTx.giveStatus_sent, hsent]
  rfl

/-- A password transaction gives `Started` where PAM starts. -/
theorem PasswordTx.authenticate_started {pt : PasswordTx} (hsent : pt.sent = [])
    (pamStarts : Bool) : gaveStarted (pt.authenticate pamStarts).sent = pamStarts := by
  unfold PasswordTx.authenticate
  cases pamStarts
  · simp [gaveStarted, hsent]
  · -- the identifier of the session is the one just drawn, and the status is not dropped
    simp [PasswordTx.sendStatus, PasswordTx.giveStatus, gaveStarted, hsent,
      defaultVerifyStatusStarted, newVerifyStatus]

/-- A key gives `Started` where its verification is there. -/
theorem UKeyTx.authenticate_started {u : UKeyTx} (hsent : u.sent = [])
    (constructed : Except String String) :
    gaveStarted (u.authenticate constructed).sent =
      (if u.hasInit then none else errorOf constructed).isNone := by
  unfold UKeyTx.authenticate UKeyTx.construct
  rcases hinit : u.hasInit with _ | _
  · rcases constructed with err | id
    · simp [errorOf, gaveStarted, hsent]
    · rcases u.listened with _ | _ <;>
        simp [errorOf, gaveStarted, hsent, UKeyTx.giveStatus, UKeyTx.listenSignal,
          defaultVerifyStatusStarted, newVerifyStatus]
  · simp [gaveStarted, hsent, UKeyTx.giveStatus, defaultVerifyStatusStarted, newVerifyStatus]

/-- Where `Started` is given: where no error is returned, except where PAM fails. -/
theorem Tx.authenticate_spec {calls : StartCalls} {tx tx' : Tx} {err : Option String}
    (h : tx.clearSent.authenticate calls = some (tx', err)) :
    gaveStarted tx'.base.sent = true ↔ err = none ∧ ¬ tx.PamFails calls := by
  cases tx with
  | password pt =>
      cases h
      refine (Bool.eq_iff_iff.mp (PasswordTx.authenticate_started rfl _)).trans ?_
      simp [PamFails, kind]
  | fingerprint ft =>
      cases h
      rcases hc : calls.claimErr with _ | err
      · simp [base, FingerprintTx.authenticate, FingerprintTx.giveStatus, gaveStarted, PamFails,
          kind, defaultVerifyStatusStarted, newVerifyStatus]
      · simp [base, FingerprintTx.authenticate, gaveStarted]
  | face ft =>
      obtain ⟨ft', hft, heq⟩ := Option.map_eq_some_iff.mp h
      cases heq
      simp [base, CameraTx.authenticate_started hft rfl, PamFails, kind]
  | iris ft =>
      obtain ⟨ft', hft, heq⟩ := Option.map_eq_some_iff.mp h
      cases heq
      simp [base, CameraTx.authenticate_started hft rfl, PamFails, kind]
  | uKey u =>
      cases h
      refine (Bool.eq_iff_iff.mp (UKeyTx.authenticate_started rfl _)).trans ?_
      simp [PamFails, kind]
  | custom tx =>
      cases h
      simp [base, CustomTx.authenticate, CustomTx.giveStatus, gaveStarted, PamFails, kind,
        defaultVerifyStatusStarted, newVerifyStatus]

/-! ## The loop over the transactions -/

/-- A flag selects a transaction. -/
def selects (flag : ℤ) (tx : Tx) : Bool := Int.land flag (authTypeToFlag tx.base.type0) ≠ 0

/-- The round of one transaction in the loop of a start: the transaction before and after it, and
the statuses that it has given in between. -/
structure StartTurn where
  before : Tx
  after : Tx
  given : List Given

/-- The loop of a start, as far as it has come: the counter, the transactions that it has started
and those that it has set a timer for, and the rounds. -/
structure StartLoop where
  hasFailed : ℕ
  startedTxs : List Tx
  timers : List AuthType
  turns : List StartTurn

namespace StartLoop

/-- The loop before its first round. -/
def new : StartLoop := ⟨0, [], [], []⟩

/-- A round that calls nothing. -/
def skip (l : StartLoop) (tx : Tx) : StartLoop := { l with turns := l.turns ++ [⟨tx, tx, []⟩] }

/-- One round. Source: `normal_verify.go` and `multifactor_verify.go`, `authenticate`, the body of
the loop, which is the same in both but for `startedTxs`. -/
def round (flag timeout : ℤ) (l : StartLoop) (e : Tx × StartCalls) : Option StartLoop :=
  if selects flag e.1 then
    let l := { l with hasFailed := l.hasFailed + 1 }
    if e.1.base.canStart then
      (e.1.clearSent.authenticate e.2).map fun r =>
        let l := { l with turns := l.turns ++ [⟨e.1, r.1, r.1.base.sent⟩] }
        if r.2.isSome then l
        else { l with
          hasFailed := l.hasFailed - 1
          timers := if timeout ≠ -1 ∧ 0 < timeout then l.timers ++ [r.1.base.type0] else l.timers
          startedTxs := l.startedTxs ++ [r.1] }
    else some (l.skip e.1)
  else some (l.skip e.1)

/-- How many selected transactions were not given `Started`. -/
def unstarted (flag : ℤ) (l : StartLoop) : ℕ :=
  l.turns.countP fun t => selects flag t.before && !gaveStarted t.given

/-- The loop tries a transaction whose PAM does not start. -/
def Silent (flag : ℤ) (e : Tx × StartCalls) : Prop :=
  selects flag e.1 = true ∧ e.1.base.canStart = true ∧ e.1.PamFails e.2

instance (flag : ℤ) (e : Tx × StartCalls) : Decidable (Silent flag e) :=
  inferInstanceAs (Decidable (_ ∧ _ ∧ _))

/-- A round adds one to the counter where the transaction is selected and is not given `Started`,
unless it is silent. -/
theorem round_spec {flag timeout : ℤ} {l l' : StartLoop} {e : Tx × StartCalls}
    (h : l.round flag timeout e = some l') :
    ∃ t, l'.turns = l.turns ++ [t] ∧ t.before = e.1 ∧
      (Silent flag e → gaveStarted t.given = false) ∧ l'.hasFailed = l.hasFailed +
        if selects flag e.1 = true ∧ gaveStarted t.given = false ∧ ¬ Silent flag e then 1 else 0 := by
  obtain ⟨tx, calls⟩ := e
  unfold round at h
  rcases hsel : selects flag tx with _ | _
  · rw [hsel, if_neg (by simp)] at h
    cases h
    exact ⟨⟨tx, tx, []⟩, rfl, rfl, fun _ => rfl, by simp [skip]⟩
  · rw [hsel, if_pos rfl] at h
    dsimp only at h
    rcases hcan : tx.base.canStart with _ | _
    · rw [hcan, if_neg (by simp)] at h
      cases h
      have hloud : ¬ Silent flag (tx, calls) := fun hs =>
        Bool.false_ne_true (hcan.symm.trans hs.2.1)
      exact ⟨⟨tx, tx, []⟩, rfl, rfl, fun _ => rfl, by simp [skip, gaveStarted, hloud]⟩
    · rw [hcan, if_pos rfl] at h
      obtain ⟨⟨tx', err⟩, hauth, rfl⟩ := Option.map_eq_some_iff.mp h
      have hstarted := Tx.authenticate_spec hauth
      have hsilent : Silent flag (tx, calls) ↔ tx.PamFails calls :=
        ⟨fun hs => hs.2.2, fun hp => ⟨hsel, hcan, hp⟩⟩
      refine ⟨⟨tx, tx', tx'.base.sent⟩, ?_, rfl, ?_, ?_⟩
      · cases err <;> rfl
      · intro hs
        simpa [hsilent.mp hs] using hstarted
      · rcases err with _ | err
        · -- no error: the counter is taken back, and `Started` is given unless PAM failed
          have hquiet : ¬ (gaveStarted tx'.base.sent = false ∧ ¬ Silent flag (tx, calls)) := by
            rw [hsilent]
            rintro ⟨hnot, hp⟩
            rw [hstarted.mpr ⟨rfl, hp⟩] at hnot
            cases hnot
          change l.hasFailed + 1 - 1 = l.hasFailed + (if _ then 1 else 0)
          rw [if_neg fun hc => hquiet hc.2]
          rfl
        · -- an error: the counter stands, and `Started` was not given
          have hnot : gaveStarted tx'.base.sent = false := by simpa using hstarted
          have hp : ¬ Silent flag (tx, calls) := by
            rw [hsilent]
            rintro ⟨hkind, -⟩
            cases tx <;> cases hkind
            cases hauth
          change l.hasFailed + 1 = l.hasFailed + (if _ then 1 else 0)
          rw [if_pos ⟨rfl, hnot, hp⟩]

/-- What a round adds to the factors that did not start, it adds to the counter, one less where it
is silent. -/
theorem unstarted_round {flag timeout : ℤ} {l l' : StartLoop} {e : Tx × StartCalls}
    (h : l.round flag timeout e = some l') :
    l'.unstarted flag + l.hasFailed =
      l'.hasFailed + l.unstarted flag + if Silent flag e then 1 else 0 := by
  obtain ⟨t, hturns, hbefore, hsilent, hcount⟩ := round_spec h
  unfold unstarted
  rw [hturns, List.countP_append, List.countP_singleton, hbefore]
  by_cases hs : Silent flag e
  · have hsel := hs.1
    rw [if_neg (fun hc => hc.2.2 hs)] at hcount
    rw [if_pos hs, if_pos (by simp [hsel, hsilent hs])]
    omega
  · have hiff : (selects flag e.1 = true ∧ gaveStarted t.given = false ∧ ¬ Silent flag e) ↔
        (selects flag e.1 && !gaveStarted t.given) = true := by
      simp [hs]
    simp only [hiff] at hcount
    rw [if_neg hs]
    omega

/-- The whole loop. -/
def run (flag timeout : ℤ) (txs : List (Tx × StartCalls)) : Option StartLoop :=
  txs.foldlM (round flag timeout) new

/-- Each transaction has its round, and the counter falls short of the factors that did not start by
the silent rounds, whatever the loop has come from. -/
theorem unstarted_foldlM {flag timeout : ℤ} (txs : List (Tx × StartCalls)) {l l' : StartLoop}
    (h : txs.foldlM (round flag timeout) l = some l') :
    l'.turns.map StartTurn.before = l.turns.map StartTurn.before ++ txs.map Prod.fst ∧
      l'.unstarted flag + l.hasFailed =
        l'.hasFailed + l.unstarted flag + txs.countP fun e => Silent flag e := by
  induction txs generalizing l with
  | nil =>
      cases h
      simp only [List.countP_nil, List.map_nil, List.append_nil, true_and]
      omega
  | cons e txs ih =>
      rw [List.foldlM_cons] at h
      obtain ⟨l₁, hround, hrest⟩ := Option.bind_eq_some_iff.mp h
      obtain ⟨t, hturns, hbefore, -, -⟩ := round_spec hround
      have hone := unstarted_round hround
      obtain ⟨hmap, hmore⟩ := ih hrest
      refine ⟨?_, ?_⟩
      · rw [hmap, hturns]
        simp [hbefore]
      · rw [List.countP_cons]
        simp only [decide_eq_true_eq]
        omega

/-- Each transaction has its round, and the value returned falls short of the factors that did not
start by the silent rounds. -/
theorem unstarted_run {flag timeout : ℤ} {txs : List (Tx × StartCalls)} {l : StartLoop}
    (h : run flag timeout txs = some l) :
    l.turns.map StartTurn.before = txs.map Prod.fst ∧
      l.unstarted flag = l.hasFailed + txs.countP fun e => Silent flag e := by
  simpa [new, unstarted] using unstarted_foldlM txs h

end StartLoop

/-! ## The two controllers -/

/-- Source: `getVerifyTip` of the six kinds. -/
def TxKind.getVerifyTip : TxKind → String
  | .password => "password"
  | .fingerprint => "fingerprint"
  | .face => "face"
  | .iris => "iris"
  | .uKey => "PIN"
  | .custom => "custom"

/-- Source: `authcommon/type.go`, `IsBiometricAuth`. -/
def isBiometricAuth (type0 : String) : Bool :=
  type0 = AuthType.fingerprint.text || type0 = AuthType.fingerVein.text ||
    type0 = AuthType.face.text || type0 = AuthType.iris.text

/-- The places of the factors in a prompt for up to six of them. -/
def placesOf : ℕ → String
  | 0 => ""
  | 1 => "%s"
  | n + 2 => ", ".intercalate (List.replicate (n + 1) "%s") ++ " or %s"

/-- The prompt for the transactions that were started; the text of a format with its words comes
from `translateWrapper`. Source: `normal_verify.go`, `normalVerify.genPrompt`. -/
def NormalVerify.genPrompt (translateWrapper : String → List String → String) (txs : List Tx) :
    String :=
  match txs with
  | [] => ""
  | tx :: rest =>
      let typeList := txs.map fun tx => tx.kind.getVerifyTip
      let tip := tx.kind.getVerifyTip
      -- the last key in the list is the first transaction
      let pinFirst := tx.base.type0 = .uKey ∧ rest.all fun tx => tx.base.type0 ≠ .uKey
      if 6 < txs.length then ""
      else if isBiometricAuth tip then
        translateWrapper ("Verify your " ++ placesOf txs.length) typeList
      else if pinFirst then translateWrapper ("Enter your " ++ placesOf txs.length) typeList
      else translateWrapper (placesOf txs.length)
        (tip.capitalize :: rest.map fun tx => tx.kind.getVerifyTip)

/-- A start of a session: the calls that it makes on the session, and its loop at the end. -/
structure Started where
  calls : List ProxyCall
  loop : StartLoop

/-- The value that a start returns. -/
def Started.result (r : Started) : ℕ := r.loop.hasFailed

/-- The flag of the whole session selects all types.
Source: `normal_verify.go`, `normalVerify.authenticate`. -/
def NormalVerify.authenticate (translateWrapper : String → List String → String)
    (flag timeout : ℤ) (txs : List (Tx × StartCalls)) : Option Started :=
  let emitPrompt : Bool := flag = allAuthenticationFlag
  let flag := if flag = allAuthenticationFlag then (allAuthenticationTypeMask : ℤ) else flag
  (StartLoop.run flag timeout txs).map fun l =>
    ⟨if emitPrompt then
      [.emitStatus allAuthenticationFlag .prompt (genPrompt translateWrapper l.startedTxs)] else [],
      l⟩

/-- `first` says whether it is the first start of the session.
Source: `multifactor_verify.go`, `multiFactorVerify.authenticate`. -/
def MultiFactorVerify.authenticate (translateWrapper : String → List String → String)
    (first : Bool) (flag timeout : ℤ) (txs : List (Tx × StartCalls)) : Option Started :=
  (StartLoop.run flag timeout txs).map fun l =>
    ⟨if first then
      [.emitStatus allAuthenticationFlag .prompt
        (translateWrapper "Multiple verification methods are required" [])] else [], l⟩

namespace ControllerKind

/-- Source: `verify.go`, `Controller`, its method `authenticate`. -/
def authenticate (translateWrapper : String → List String → String) (first : Bool)
    (flag timeout : ℤ) (txs : List (Tx × StartCalls)) : ControllerKind → Option Started
  | .normal => NormalVerify.authenticate translateWrapper flag timeout txs
  | .multi => MultiFactorVerify.authenticate translateWrapper first flag timeout txs

/-- The flag that the transactions are compared with. -/
def mask (flag : ℤ) : ControllerKind → ℤ
  | .normal => if flag = allAuthenticationFlag then allAuthenticationTypeMask else flag
  | .multi => flag

/-- Both controllers run the loop. -/
theorem authenticate_loop {translateWrapper : String → List String → String} {first : Bool}
    {flag timeout : ℤ} {txs : List (Tx × StartCalls)} {k : ControllerKind} {r : Started}
    (h : k.authenticate translateWrapper first flag timeout txs = some r) :
    StartLoop.run (k.mask flag) timeout txs = some r.loop := by
  cases k with
  | normal =>
      obtain ⟨l, hl, rfl⟩ := Option.map_eq_some_iff.mp h
      exact hl
  | multi =>
      obtain ⟨l, hl, rfl⟩ := Option.map_eq_some_iff.mp h
      exact hl

end ControllerKind

/-- Each transaction of the session has its round, and the value returned is the number of selected
transactions that were not given `Started` in theirs, if and only if PAM starts for each password
transaction that the call tries. -/
theorem authenticate_counts_iff (translateWrapper : String → List String → String) (first : Bool)
    (k : ControllerKind) (flag timeout : ℤ) (txs : List (Tx × StartCalls)) (r : Started)
    (h : k.authenticate translateWrapper first flag timeout txs = some r) :
    r.loop.turns.map StartTurn.before = txs.map Prod.fst ∧
      (r.result = r.loop.unstarted (k.mask flag) ↔
        ∀ e ∈ txs, selects (k.mask flag) e.1 = true → e.1.base.canStart = true →
          e.1.kind = .password → e.2.pamErr = none) := by
  obtain ⟨hmap, hcount⟩ := StartLoop.unstarted_run (ControllerKind.authenticate_loop h)
  have hiff : r.result = r.loop.unstarted (k.mask flag) ↔
      (txs.countP fun e => StartLoop.Silent (k.mask flag) e) = 0 := by
    unfold Started.result
    omega
  refine ⟨hmap, ?_⟩
  rw [hiff, List.countP_eq_zero]
  refine forall₂_congr ?_
  intro e _
  rw [decide_eq_true_eq]
  simp only [StartLoop.Silent, Tx.PamFails, not_and, Option.not_isSome_iff_eq_none]

/-- Of a password, a fingerprint and a key, only the password starts. -/
def passwordAlone : List (Tx × StartCalls) :=
  let calls : StartCalls := ⟨none, some "claimed", .error "no key"⟩
  [(.new .password .password .unlock, calls), (.new .fingerprint .fingerprint .unlock, calls),
    (.new .uKey .uKey .unlock, calls)]

/-- The value is then two. -/
theorem authenticate_counts_passwordAlone :
    ∃ r, ControllerKind.normal.authenticate (fun f _ => f) true allAuthenticationFlag 0
        passwordAlone = some r ∧
      r.result = 2 ∧ r.result = r.loop.unstarted (ControllerKind.normal.mask allAuthenticationFlag) :=
  ⟨_, rfl, by decide, (authenticate_counts_iff (fun f _ => f) true .normal allAuthenticationFlag 0
    passwordAlone _ rfl).2.mpr (by decide)⟩

/-- Where PAM does not start for a password, neither controller counts it. -/
theorem authenticate_counts_pamFails :
    ¬ ∀ (k : ControllerKind) (flag : ℤ) (txs : List (Tx × StartCalls)) (r : Started),
      k.authenticate (fun f _ => f) true flag 0 txs = some r →
        r.result = r.loop.unstarted (k.mask flag) := by
  intro h
  have hnormal := h .normal 1 [(.new .password .password .unlock, ⟨some "no PAM", none, .ok ""⟩)]
    _ rfl
  revert hnormal
  decide

end LingmoAuthenticate.Session
