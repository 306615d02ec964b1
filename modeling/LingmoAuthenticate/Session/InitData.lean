import Mathlib.Data.List.Infix
import LingmoAuthenticate.Session.GetResult

/-!
# How a session is made: `NewManager` and `initData`

`initData` asks its environment for the program of the caller, the multi-factor configuration, the
devices and the transactions, and chooses the controller and the factors by the answers. Each
answer is a field of `InitEnv`, and may be anything. A `none` is the panic of following a nil
pointer.

* `newManager_initialised_iff`: when every session that is returned has a controller and a signal
  loop, so that no sequence of calls follows a nil pointer.
* `mfa_factors_match_iff`: when every multi-factor session has the transactions that its controller
  waits for.
-/

namespace LingmoAuthenticate.Session

open Lib AuthCommon MultiFactor

/-! ## The environment -/

/-- The calls of `GetConfig` that `initData` comes to, directly or not. The directory is watched
meanwhile, so that two of them may differ. -/
inductive ConfigQuery where
  | isProgramConfigured
  | newMultiFactorVerify
  | hasValidUKeyDevice
  | isUKeySupportedUser
  | isFaceStatusOk
  | isIrisStatusOk
  deriving DecidableEq, Repr

/-- What the devices and services answer when they are asked which factors are available; `none`
is an error. The faces and irises are asked for by the name of a service. -/
structure DeviceQueries where
  hasFingerprintDevice : Option Bool
  listFingers : Option (List String)
  validUKeyDevices : List String
  isUKeySupportedUser : String → Bool
  isFaceStatusOk : String → Bool
  isIrisStatusOk : String → Bool

/-- Whether the transactions that need a service can be made: `newUKeyTx` needs the system bus, the
others fail in `initTx`. -/
structure Constructions where
  newUKeyTx : Bool
  initFingerprintTx : Bool
  initFaceTx : Bool
  initIrisTx : Bool

/-- The answers to everything that making a session asks; the devices are asked once for the factors
of the configuration and once for those of the client. -/
structure InitEnv where
  connPid : Option ℕ
  readlinkFd0 : ℕ → Option String
  execPath : Option String
  getConfig : ConfigQuery → Option Config
  disabledList : List String
  isPrivilegesConfigured : String → Bool
  devices : Bool → DeviceQueries
  constructions : Constructions

/-! ## The session -/

/-- What `initData` sets of a session, and what its calls need: the controller and the signal loop
may be nil. Source: `session/manager.go`, `Manager`. -/
structure InitManager where
  verifySender : String
  refFlag : ℕ
  prgPath : String
  isTTYPrg : Bool
  isMFA : Bool
  controller : Option Controller
  signalLoop : Bool
  txs : List AuthType
  quitMethod : QuitMethod
  isStarted : Bool
  ended : Bool
  canceled : Bool
  quited : Bool
  timers : ℕ

namespace InitEnv

/-- Source: `session/manager.go`, `isTTYPrg`. -/
def isTTYPrg (env : InitEnv) : Option Bool :=
  env.connPid.bind fun pid => (env.readlinkFd0 pid).map fun link =>
    decide ("tty".toList <:+: link.toList)

/-- Source: `multifactor/config.go`, `Config.GetAuthTypeConfig`. -/
def getAuthTypeConfig (c : Config) (type0 : AuthType) : Option AuthTypeConfig :=
  c.requestVerificationType.find? fun atc => atc.type = authTypeToMfaType type0

/-- Source: `multifactor/config.go`, `AuthTypeConfig.IsUseDefaultService`. -/
def isUseDefaultService (atc : AuthTypeConfig) : Bool := atc.service = "" || atc.service = "*"

/-- Source: `session/manager.go`, `Manager.getUKeyConfig`. -/
def getUKeyConfig (env : InitEnv) (isMFA : Bool) (q : ConfigQuery) : Option AuthTypeConfig :=
  if isMFA then (env.getConfig q).bind fun c => getAuthTypeConfig c .uKey
  else some ⟨authTypeToMfaType .uKey, "*"⟩

/-- Source: `session/manager.go`, `Manager.hasValidUKeyDevice`. -/
def hasValidUKeyDevice (env : InitEnv) (isMFA : Bool) : Bool :=
  (env.getUKeyConfig isMFA .hasValidUKeyDevice).any fun atc =>
    let devices := (env.devices isMFA).validUKeyDevices
    !devices.isEmpty && (isUseDefaultService atc || devices.contains atc.service)

/-- Source: `session/manager.go`, `Manager.isUKeySupportedUser`. -/
def isUKeySupportedUser (env : InitEnv) (isMFA : Bool) : Bool :=
  (env.getUKeyConfig isMFA .isUKeySupportedUser).any fun atc =>
    (env.devices isMFA).isUKeySupportedUser atc.service

/-- The check of a camera, for the service that is configured for it.
Source: `session/manager.go`, `Manager.isFaceStatusOk` and `Manager.isIrisStatusOk`. -/
def isCameraStatusOk (env : InitEnv) (isMFA : Bool) (q : ConfigQuery) (type0 : AuthType)
    (status : String → Bool) : Bool :=
  if isMFA then
    ((env.getConfig q).bind fun c => getAuthTypeConfig c type0).any fun atc => status atc.service
  else status ""

/-- Whether a factor is available. Source: `session/manager.go`, the conditions of
`Manager.checkAvailableTx`. -/
def isAvailable (env : InitEnv) (isMFA : Bool) : AuthType → Bool
  | .password | .activeDirectory | .custom => true
  | .fingerprint =>
      (env.devices isMFA).hasFingerprintDevice.getD false &&
        ((env.devices isMFA).listFingers.getD []).length ≠ 0
  | .uKey => env.hasValidUKeyDevice isMFA && env.isUKeySupportedUser isMFA
  | .face => env.isCameraStatusOk isMFA .isFaceStatusOk .face (env.devices isMFA).isFaceStatusOk
  | .iris => env.isCameraStatusOk isMFA .isIrisStatusOk .iris (env.devices isMFA).isIrisStatusOk
  | .fingerVein | .other _ => false

/-- The types in the order in which the source tests their flags. -/
def checkedTypes : List AuthType :=
  [.password, .fingerprint, .activeDirectory, .uKey, .face, .iris, .custom]

/-- Source: `session/manager.go`, `Manager.checkAvailableTx`. -/
def checkAvailableTx (env : InitEnv) (isMFA : Bool) (flag : ℕ) : ℕ :=
  checkedTypes.foldl (fun retFlag t =>
    if flag &&& authTypeToFlag t ≠ 0 ∧ env.isAvailable isMFA t then retFlag ||| authTypeToFlag t
    else retFlag) 0

/-- Whether the transaction of a type can be made; the custom one is for two programs only.
Source: `session/manager.go`, the conditions of `Manager.addTxs`, and `custom_tx.go`,
`CustomTx.initTx`. -/
def constructs (env : InitEnv) (prgPath : String) : AuthType → Bool
  | .password | .activeDirectory => true
  | .fingerprint => env.constructions.initFingerprintTx
  | .uKey => env.constructions.newUKeyTx
  | .face => env.constructions.initFaceTx
  | .iris => env.constructions.initIrisTx
  | .custom => prgPath = "/usr/bin/dde-lock" || prgPath = "/usr/bin/lightdm-deepin-greeter"
  | .fingerVein | .other _ => false

/-- The types of the transactions that are added; one that cannot be made is logged and left out.
Source: `session/manager.go`, `Manager.addTxs`. -/
def addTxs (env : InitEnv) (prgPath : String) (flag : ℕ) : List AuthType :=
  checkedTypes.filter fun t => flag &&& authTypeToFlag t ≠ 0 && env.constructs prgPath t

end InitEnv

namespace InitManager

/-- Source: `session/manager.go`, `NewManager`, before `initData`. -/
def fresh (sender : String) (refFlag : ℕ) : InitManager :=
  ⟨sender, refFlag, "", false, false, none, false, [], .autoQuit, false, false, false, false, 0⟩

/-- The part that every controller goes through. Source: `session/manager.go`,
`Manager.initData`, from `controller.init` on, and `Manager.listenSignalUpdateLimited`. -/
def finishInit (m : InitManager) : InitManager := { m with signalLoop := true }

/-- The single-factor part of `Manager.initData`. Source: `session/manager.go`. -/
def initSFA (env : InitEnv) (m : InitManager) : InitManager :=
  let txs := env.addTxs m.prgPath (env.checkAvailableTx false m.refFlag)
  finishInit { m with isMFA := false, txs := txs, controller := some (.normal (.new txs)) }

/-- A session is filled in; the inner `none` is a returned error. Where the terminal of the caller
cannot be found, the error is dropped and nothing is filled in.
Source: `session/manager.go`, `Manager.initData`. -/
def initData (env : InitEnv) (m : InitManager) : Option (Option InitManager) :=
  match env.isTTYPrg with
  | none => some (some m)
  | some isTTYPrg =>
      match env.execPath with
      | none => some none
      | some execPath =>
          let m := { m with
            isTTYPrg := isTTYPrg
            prgPath := execPath
            isMFA := (env.getConfig .isProgramConfigured).isSome &&
              !env.disabledList.contains execPath }
          if env.isPrivilegesConfigured execPath then
            some (some ({ m with refFlag := authTypeToFlag .password }.initSFA env))
          else if m.isMFA then
            match env.getConfig .newMultiFactorVerify with
            | none => none
            | some conf =>
                let controller := (MultiFactorVerify.new conf).checkTx
                let refFlags := controller.mfaAuthFlags
                if env.checkAvailableTx true refFlags ≠ refFlags then some (some (m.initSFA env))
                else some (some (finishInit { m with
                  txs := env.addTxs execPath refFlags
                  controller := some (.multi controller) }))
          else some (some (m.initSFA env))

/-- Source: `session/manager.go`, `NewManager`. -/
def newManager (env : InitEnv) (sender : String) (refFlag : ℕ) : Option (Option InitManager) :=
  initData env (fresh sender refFlag)

/-! ## The calls -/

/-- The calls of clients on a session, and the timer of its delayed quit. -/
inductive Call where
  | start (sender : String)
  | endCall (flag : ℤ)
  | setQuitFlag (method : ℤ)
  | quit
  | setToken (sender : String)
  | quitTimer
  deriving DecidableEq, Repr

/-- The signal loop is stopped. Source: `session/manager.go`, `Manager.quit`. -/
def quit (m : InitManager) : Option InitManager :=
  if m.quited then some m else if m.signalLoop then some { m with quited := true } else none

/-- The controller is ended, then the session quits now or later.
Source: `session/manager.go`, `Manager.endAll`. -/
def endAll (m : InitManager) : Option InitManager :=
  m.controller.bind fun _ =>
    let m := { m with ended := true }
    if m.canceled then some m
    else match m.quitMethod with
      | .autoQuit => m.quit.map fun m => { m with canceled := true }
      | .manualQuit => some { m with timers := m.timers + 1, canceled := true }

/-- One call; a session that has quit is not reached any more. What the controller and the
transactions do is not part of this. Source: `session/manager_ifc.go`. -/
def call (m : InitManager) : Call → Option InitManager
  | .start sender =>
      if m.quited ∨ sender ≠ m.verifySender then some m
      else m.controller.bind fun _ => some { m with isStarted := true }
  | .endCall flag =>
      if m.quited then some m
      else if flag = allAuthenticationFlag then m.endAll
      else m.controller.bind fun _ => some m
  | .setQuitFlag method =>
      if m.quited then some m
      else some ((QuitMethod.ofMethod method).elim m fun q => { m with quitMethod := q })
  | .quit =>
      if m.quited then some m
      else if m.isStarted = false then m.quit
      else m.controller.bind fun _ => if m.ended then m.quit else some m
  | .setToken _ => some m
  | .quitTimer =>
      if 0 < m.timers then m.quit.map fun m' => { m' with timers := m.timers - 1 } else some m

/-- Calls one after the other. -/
def calls (m : InitManager) (cs : List Call) : Option InitManager := cs.foldlM call m

/-- The session has what its calls rely on: a controller, and the loop that emits its signals. -/
structure Initialised (m : InitManager) : Prop where
  controller : m.controller.isSome = true
  signalLoop : m.signalLoop = true

/-- A pointer that is not nil is followed. -/
theorem bind_const {α β : Type*} {o : Option α} (h : o.isSome = true) (x : Option β) :
    (o.bind fun _ => x) = x := by
  obtain ⟨a, rfl⟩ := Option.isSome_iff_exists.mp h
  rfl

/-- A session that has been filled in can quit. -/
theorem Initialised.quit {m : InitManager} (h : m.Initialised) :
    ∃ m', m.quit = some m' ∧ m'.Initialised := by
  unfold InitManager.quit
  rw [h.signalLoop]
  cases hq : m.quited with
  | true => exact ⟨m, rfl, h⟩
  | false => exact ⟨{ m with quited := true, signalLoop := true }, rfl, h.controller, rfl⟩

/-- A session that has been filled in can end. -/
theorem Initialised.endAll {m : InitManager} (h : m.Initialised) :
    ∃ m', m.endAll = some m' ∧ m'.Initialised := by
  have hended : Initialised { m with ended := true } := ⟨h.controller, h.signalLoop⟩
  obtain ⟨m', hquit, hm'⟩ := hended.quit
  unfold InitManager.endAll
  rw [bind_const h.controller]
  dsimp only
  split_ifs
  · exact ⟨_, rfl, hended⟩
  · cases hm : m.quitMethod with
    | autoQuit =>
        rw [hm] at hquit
        rw [hquit]
        exact ⟨_, rfl, hm'.controller, hm'.signalLoop⟩
    | manualQuit => exact ⟨_, rfl, h.controller, h.signalLoop⟩

/-- **One call** on a session that has been filled in follows no nil pointer. -/
theorem Initialised.call {m : InitManager} (h : m.Initialised) (c : Call) :
    ∃ m', m.call c = some m' ∧ m'.Initialised := by
  cases c with
  | start sender =>
      dsimp only [InitManager.call]
      split_ifs
      · exact ⟨m, rfl, h⟩
      · rw [bind_const h.controller]
        exact ⟨_, rfl, h.controller, h.signalLoop⟩
  | endCall flag =>
      dsimp only [InitManager.call]
      split_ifs
      · exact ⟨m, rfl, h⟩
      · exact h.endAll
      · rw [bind_const h.controller]
        exact ⟨m, rfl, h⟩
  | setQuitFlag method =>
      dsimp only [InitManager.call]
      split_ifs
      · exact ⟨m, rfl, h⟩
      · cases QuitMethod.ofMethod method with
        | none => exact ⟨m, rfl, h⟩
        | some q => exact ⟨_, rfl, h.controller, h.signalLoop⟩
  | quit =>
      dsimp only [InitManager.call]
      split_ifs
      · exact ⟨m, rfl, h⟩
      · exact h.quit
      · rw [bind_const h.controller]
        exact h.quit
      · rw [bind_const h.controller]
        exact ⟨m, rfl, h⟩
  | setToken sender => exact ⟨m, rfl, h⟩
  | quitTimer =>
      dsimp only [InitManager.call]
      split_ifs
      · obtain ⟨m', hquit, hm'⟩ := h.quit
        rw [hquit]
        exact ⟨_, rfl, hm'.controller, hm'.signalLoop⟩
      · exact ⟨m, rfl, h⟩

/-- No sequence of calls follows a nil pointer. -/
theorem Initialised.calls {m : InitManager} (h : m.Initialised) (cs : List Call) :
    (m.calls cs).isSome = true := by
  unfold InitManager.calls
  induction cs generalizing m with
  | nil => rfl
  | cons c cs ih =>
      obtain ⟨m', hm', hinit⟩ := h.call c
      rw [List.foldlM_cons, hm']
      exact ih hinit

/-! ## When every session is filled in -/

/-- The program asks for a multi-factor session: it is configured, not disabled, and no privileged
master. Source: `session/manager.go`, the conditions of `Manager.initData`. -/
def entersMFA (env : InitEnv) (execPath : String) : Bool :=
  (env.getConfig .isProgramConfigured).isSome && !env.disabledList.contains execPath &&
    !env.isPrivilegesConfigured execPath

/-- The configuration that was there when the program was looked up is there when the controller is
made. -/
def ConfigStays (env : InitEnv) : Prop :=
  ∀ execPath, env.execPath = some execPath → entersMFA env execPath = true →
    (env.getConfig .newMultiFactorVerify).isSome = true

/-- What is promised of a session that is made: there is none, or it has what its calls rely on, and
no sequence of calls follows a nil pointer. -/
def Usable (r : Option (Option InitManager)) : Prop :=
  r = some none ∨ ∃ m, r = some (some m) ∧ m.Initialised ∧ ∀ cs, (m.calls cs).isSome = true

/-- The ways in which a session is made: not filled in, refused, with a controller of a
configuration that has vanished (which panics), or with a controller for one factor or for several,
of which all must be available. -/
inductive Made (env : InitEnv) (sender : String) (refFlag : ℕ) :
    Option (Option InitManager) → Prop
  | unfilled (h : env.isTTYPrg = none) : Made env sender refFlag (some (some (fresh sender refFlag)))
  | refused (h : env.isTTYPrg.isSome = true) (hp : env.execPath = none) :
      Made env sender refFlag (some none)
  | vanished (h : env.isTTYPrg.isSome = true) (p : String) (hp : env.execPath = some p)
      (henters : entersMFA env p = true) (hc : env.getConfig .newMultiFactorVerify = none) :
      Made env sender refFlag none
  | single (h : env.isTTYPrg.isSome = true) (p : String) (hp : env.execPath = some p)
      (hsingle : entersMFA env p = true → ∃ conf, env.getConfig .newMultiFactorVerify = some conf ∧
        env.checkAvailableTx true (MultiFactorVerify.new conf).checkTx.mfaAuthFlags ≠
          (MultiFactorVerify.new conf).checkTx.mfaAuthFlags)
      (m : InitManager) (g : NormalVerify) (hctl : m.controller = some (.normal g))
      (hloop : m.signalLoop = true) (hmfa : m.isMFA = false) :
      Made env sender refFlag (some (some m))
  | multi (h : env.isTTYPrg.isSome = true) (p : String) (hp : env.execPath = some p)
      (henters : entersMFA env p = true) (conf : Config)
      (hc : env.getConfig .newMultiFactorVerify = some conf)
      (havailable : env.checkAvailableTx true (MultiFactorVerify.new conf).checkTx.mfaAuthFlags =
        (MultiFactorVerify.new conf).checkTx.mfaAuthFlags)
      (m : InitManager) (hctl : m.controller = some (.multi (MultiFactorVerify.new conf).checkTx))
      (hloop : m.signalLoop = true) (hmfa : m.isMFA = true)
      (htxs : m.txs = env.addTxs p (MultiFactorVerify.new conf).checkTx.mfaAuthFlags) :
      Made env sender refFlag (some (some m))

/-- **How a session is made**, for all answers of the environment. -/
theorem made (env : InitEnv) (sender : String) (refFlag : ℕ) :
    Made env sender refFlag (newManager env sender refFlag) := by
  unfold newManager initData
  rcases htty : env.isTTYPrg with _ | isTTYPrg
  · exact .unfilled htty
  · have h : env.isTTYPrg.isSome = true := by rw [htty]; rfl
    rcases hp : env.execPath with _ | p
    · exact .refused h hp
    · dsimp only
      by_cases hpriv : env.isPrivilegesConfigured p = true
      · -- a privileged master
        rw [if_pos hpriv]
        refine .single h p hp ?_ _ _ rfl rfl rfl
        intro henters
        simp [entersMFA, hpriv] at henters
      · rw [if_neg hpriv]
        by_cases hmfa : ((env.getConfig .isProgramConfigured).isSome &&
            !env.disabledList.contains p) = true
        · have henters : entersMFA env p = true := by
            unfold entersMFA
            rw [hmfa]
            simpa using hpriv
          rw [if_pos hmfa]
          rcases hc : env.getConfig .newMultiFactorVerify with _ | conf
          · exact .vanished h p hp henters hc
          · dsimp only
            split_ifs with havailable
            · exact .single h p hp (fun _ => ⟨conf, hc, havailable⟩) _ _ rfl rfl rfl
            · exact .multi h p hp henters conf hc (not_not.mp havailable) _ rfl rfl hmfa rfl
        · rw [if_neg hmfa]
          refine .single h p hp ?_ _ _ rfl rfl rfl
          intro henters
          unfold entersMFA at henters
          exact absurd (Bool.and_eq_true_iff.mp henters).1 hmfa

/-- **When every session is filled in.** For all answers of the environment, `NewManager` returns no
session, or one with a controller and a signal loop on which no sequence of calls follows a nil
pointer, exactly when the terminal of the caller can be told, and a configuration that has been
found stays. -/
theorem newManager_initialised_iff (env : InitEnv) (sender : String) (refFlag : ℕ) :
    Usable (newManager env sender refFlag) ↔ env.isTTYPrg.isSome = true ∧ ConfigStays env := by
  have hmade := made env sender refFlag
  generalize newManager env sender refFlag = r at hmade ⊢
  cases hmade with
  | unfilled h =>
      rw [h]
      constructor
      · rintro (hnone | ⟨m, hm, hinit, -⟩)
        · cases hnone
        · cases hm
          cases hinit.controller
      · rintro ⟨hcontra, -⟩
        cases hcontra
  | refused h hp =>
      refine ⟨fun _ => ⟨h, ?_⟩, fun _ => .inl rfl⟩
      intro p hp'
      rw [hp] at hp'
      cases hp'
  | vanished h p hp henters hc =>
      constructor
      · rintro (hnone | ⟨m, hm, -⟩)
        · cases hnone
        · cases hm
      · rintro ⟨-, hstays⟩
        have hsome := hstays p hp henters
        rw [hc] at hsome
        cases hsome
  | single h p hp hsingle m g hctl hloop hmfa =>
      have hinit : m.Initialised := ⟨by rw [hctl]; rfl, hloop⟩
      refine ⟨fun _ => ⟨h, ?_⟩, fun _ => .inr ⟨m, rfl, hinit, hinit.calls⟩⟩
      intro p' hp' henters
      obtain rfl : p = p' := Option.some.inj (hp.symm.trans hp')
      obtain ⟨conf, hc, -⟩ := hsingle henters
      rw [hc]
      rfl
  | multi h p hp henters conf hc havailable m hctl hloop hmfa htxs =>
      have hinit : m.Initialised := ⟨by rw [hctl]; rfl, hloop⟩
      refine ⟨fun _ => ⟨h, ?_⟩, fun _ => .inr ⟨m, rfl, hinit, hinit.calls⟩⟩
      intro _ _ _
      rw [hc]
      rfl

/-- An environment in which every query succeeds, for a program that is to be authenticated by
password and fingerprint. -/
def twoFactorEnv : InitEnv where
  connPid := some 1000
  readlinkFd0 _ := some "/dev/null"
  execPath := some "/usr/bin/dde-lock"
  getConfig _ := some ⟨.lock, [⟨.password, ""⟩, ⟨.fingerprint, "*"⟩]⟩
  disabledList := []
  isPrivilegesConfigured _ := false
  devices _ := ⟨some true, some ["right-index-finger"], [], fun _ => false, fun _ => false,
    fun _ => false⟩
  constructions := ⟨true, true, true, true⟩

/-- A caller that has closed its standard input gets a session without a controller, and ending it
follows the nil pointer. -/
theorem newManager_uninitialised : ¬ ∀ env sender refFlag, Usable (newManager env sender refFlag) := by
  intro hall
  rcases hall { twoFactorEnv with readlinkFd0 := fun _ => none } ":1.7" 1 with
    hnone | ⟨m, hm, -, hcalls⟩
  · cases hnone
  · cases hm
    exact absurd (hcalls [.endCall (-1)]) (by decide)

/-! ## When every multi-factor session has its transactions -/

/-- The program and the configuration of a session that opens with multi-factor authentication:
each factor is available when it is asked for. -/
def mfaConfig (env : InitEnv) : Option (String × Config) :=
  env.isTTYPrg.bind fun _ => env.execPath.bind fun p =>
    (env.getConfig .newMultiFactorVerify).bind fun conf =>
      let refFlags := (MultiFactorVerify.new conf).checkTx.mfaAuthFlags
      if entersMFA env p = true ∧ env.checkAvailableTx true refFlags = refFlags then some (p, conf)
      else none

/-- The transactions of a multi-factor session are those that its controller waits for: one for each
factor, and as many as the results that it expects. -/
def FactorsMatch (m : InitManager) : Prop :=
  match m.controller with
  | some (.multi c) => (∀ t, authTypeToFlag t &&& c.mfaAuthFlags ≠ 0 → m.txs.count t = 1) ∧
      m.txs.length = c.setExpectResult.expectPassNumber
  | _ => False

/-- Every factor of the configuration gets its transaction. -/
def Constructed (env : InitEnv) : Prop :=
  ∀ p conf, mfaConfig env = some (p, conf) →
    ∀ t, authTypeToFlag t &&& (MultiFactorVerify.start conf).mfaAuthFlags ≠ 0 →
      env.constructs p t = true

/-- Every type of the table is tested for. -/
theorem checkedTypes_complete : allAuthTypes ⊆ InitEnv.checkedTypes := by decide

/-- Which transactions are added. -/
theorem mem_addTxs {env : InitEnv} {p : String} {flag : ℕ} {t : AuthType} :
    t ∈ env.addTxs p flag ↔ t ∈ InitEnv.checkedTypes ∧ authTypeToFlag t &&& flag ≠ 0 ∧
      env.constructs p t = true := by
  unfold InitEnv.addTxs
  simp [Nat.and_comm]

/-- No transaction is added twice. -/
theorem addTxs_nodup (env : InitEnv) (p : String) (flag : ℕ) : (env.addTxs p flag).Nodup :=
  List.Nodup.filter _ (by decide)

/-- Where every factor of a configuration gets its transaction, there is one for each. -/
theorem length_addTxs {env : InitEnv} {p : String} {conf : Config}
    (hconf : conf.isValidConfig = true)
    (hall : ∀ t, authTypeToFlag t &&& (MultiFactorVerify.start conf).mfaAuthFlags ≠ 0 →
      env.constructs p t = true) :
    (env.addTxs p (MultiFactorVerify.start conf).mfaAuthFlags).length =
      (getAuthTypeList conf).length := by
  have hperm : ((env.addTxs p (MultiFactorVerify.start conf).mfaAuthFlags).map authTypeToFlag).Perm
      (getAuthTypeList conf) := by
    refine (List.perm_ext_iff_of_nodup ?_ (getAuthTypeList_nodup hconf)).mpr ?_
    · refine List.Nodup.map_on ?_ (addTxs_nodup env p _)
      intro t ht u _ htu
      have hflag : authTypeToFlag t ≠ 0 := fun h0 => (mem_addTxs.mp ht).2.1 (by rw [h0]; simp)
      exact authTypeToFlag_inj hflag htu
    · intro f
      rw [List.mem_map]
      constructor
      · rintro ⟨t, ht, rfl⟩
        exact (MultiFactorVerify.land_mask_iff hconf t).mp (mem_addTxs.mp ht).2.1
      · intro hf
        obtain ⟨t, ht, rfl⟩ := exists_type_of_mem hconf hf
        have hland := (MultiFactorVerify.land_mask_iff hconf t).mpr hf
        exact ⟨t, mem_addTxs.mpr ⟨checkedTypes_complete ht, hland, hall t hland⟩, rfl⟩
  rw [← hperm.length_eq, List.length_map]

/-- Whether a session opens with multi-factor authentication, and with what. -/
theorem mfaConfig_spec {env : InitEnv} {sender : String} {refFlag : ℕ} {m : InitManager}
    (hm : newManager env sender refFlag = some (some m)) :
    (m.isMFA = false ∧ mfaConfig env = none ∧ ∀ c, m.controller ≠ some (.multi c)) ∨
      ∃ p conf, mfaConfig env = some (p, conf) ∧ m.isMFA = true ∧
        m.controller = some (.multi (MultiFactorVerify.new conf).checkTx) ∧
        m.txs = env.addTxs p (MultiFactorVerify.start conf).mfaAuthFlags := by
  have hmade := made env sender refFlag
  rw [hm] at hmade
  cases hmade with
  | unfilled h =>
      left
      refine ⟨rfl, ?_, fun c hc => by cases hc⟩
      unfold mfaConfig
      rw [h]
      rfl
  | single h p hp hsingle _ g hctl hloop hmfa =>
      left
      refine ⟨hmfa, ?_, ?_⟩
      · obtain ⟨tty, htty⟩ := Option.isSome_iff_exists.mp h
        unfold mfaConfig
        rw [htty, hp, Option.bind_some, Option.bind_some]
        rcases hc : env.getConfig .newMultiFactorVerify with _ | conf
        · rfl
        · refine if_neg ?_
          rintro ⟨henters, havailable⟩
          obtain ⟨conf', hc', hne⟩ := hsingle henters
          obtain rfl : conf = conf' := Option.some.inj (hc.symm.trans hc')
          exact hne havailable
      · intro c hc
        rw [hctl] at hc
        cases hc
  | multi h p hp henters conf hc havailable _ hctl hloop hmfa htxs =>
      right
      obtain ⟨tty, htty⟩ := Option.isSome_iff_exists.mp h
      refine ⟨p, conf, ?_, hmfa, hctl, htxs⟩
      unfold mfaConfig
      rw [htty, hp, hc, Option.bind_some, Option.bind_some, Option.bind_some]
      exact if_pos ⟨henters, havailable⟩

/-- **When every multi-factor session has its transactions.** For all answers of the environment,
with configurations that are valid as `loadConfigFile` keeps them: a session opens with multi-factor
authentication only with one transaction for every factor that its controller waits for, and is a
single-factor one otherwise, exactly when every factor of the configuration that it opens with gets
its transaction. -/
theorem mfa_factors_match_iff {env : InitEnv}
    (hvalid : ∀ q conf, env.getConfig q = some conf → conf.isValidConfig = true) {sender : String}
    {refFlag : ℕ} {m : InitManager} (hm : newManager env sender refFlag = some (some m)) :
    ((m.isMFA = true → m.FactorsMatch) ∧
      (m.isMFA = false → ∀ c, m.controller ≠ some (.multi c))) ↔ Constructed env := by
  rcases mfaConfig_spec hm with ⟨hmfa, hnone, hctl⟩ | ⟨p, conf, hsome, hmfa, hctl, htxs⟩
  · refine ⟨?_, fun _ => ⟨?_, fun _ => hctl⟩⟩
    · intro _ p conf hsome
      rw [hnone] at hsome
      cases hsome
    · intro h
      rw [hmfa] at h
      cases h
  · have hconf : conf.isValidConfig = true := by
      unfold mfaConfig at hsome
      simp only [Option.bind_eq_some_iff, Option.ite_none_right_eq_some, Option.some.injEq,
        Prod.mk.injEq] at hsome
      obtain ⟨-, -, -, -, conf', hc, -, -, rfl⟩ := hsome
      exact hvalid _ _ hc
    have hmatch : m.FactorsMatch ↔
        (∀ t, authTypeToFlag t &&& (MultiFactorVerify.start conf).mfaAuthFlags ≠ 0 →
          m.txs.count t = 1) ∧ m.txs.length = (getAuthTypeList conf).length := by
      unfold FactorsMatch
      rw [hctl]
      exact Iff.rfl
    constructor
    · rintro ⟨hfactors, -⟩ p' conf' hsome' t hland
      rw [hsome, Option.some.injEq, Prod.mk.injEq] at hsome'
      obtain ⟨rfl, rfl⟩ := hsome'
      have hcount := (hmatch.mp (hfactors hmfa)).1 t hland
      have hmem : t ∈ m.txs := List.count_pos_iff.mp (by omega)
      rw [htxs] at hmem
      exact (mem_addTxs.mp hmem).2.2
    · intro hall
      have hfactors := hall p conf hsome
      refine ⟨fun _ => hmatch.mpr ⟨?_, ?_⟩, ?_⟩
      · intro t hland
        obtain ⟨u, hu, htu⟩ := exists_type_of_mem hconf
          ((MultiFactorVerify.land_mask_iff hconf t).mp hland)
        have hne : authTypeToFlag t ≠ 0 := by
          rw [htu]
          exact authTypeToFlag_ne_zero_of_mem hu
        obtain rfl : t = u := authTypeToFlag_inj hne htu
        rw [htxs]
        exact List.count_eq_one_of_mem (addTxs_nodup env p _)
          (mem_addTxs.mpr ⟨checkedTypes_complete hu, hland, hfactors t hland⟩)
      · rw [htxs]
        exact length_addTxs hconf hfactors
      · intro h
        rw [hmfa] at h
        cases h

/-- The session of the two factors. -/
theorem mfa_factors_match_twoFactors :
    ∃ m, newManager twoFactorEnv ":1.7" 1 = some (some m) ∧
      (((m.isMFA = true → m.FactorsMatch) ∧
        (m.isMFA = false → ∀ c, m.controller ≠ some (.multi c))) ↔ Constructed twoFactorEnv) := by
  obtain ⟨m, hm⟩ : ∃ m, newManager twoFactorEnv ":1.7" 1 = some (some m) := ⟨_, rfl⟩
  refine ⟨m, hm, mfa_factors_match_iff ?_ hm⟩
  rintro q conf ⟨⟩
  decide

/-- The finger is found when it is asked for, and not when its transaction is made: the session
waits for two results, and has one transaction. -/
theorem mfa_factor_missing :
    ¬ ∀ env sender refFlag m, newManager env sender refFlag = some (some m) →
      (∀ q conf, env.getConfig q = some conf → conf.isValidConfig = true) →
        (m.isMFA = true → m.FactorsMatch) := by
  intro hall
  have h := hall { twoFactorEnv with constructions := ⟨true, false, true, true⟩ } ":1.7" 1 _ rfl
    (by rintro q conf ⟨⟩; decide) rfl
  exact absurd h.2 (by decide)

end InitManager

end LingmoAuthenticate.Session
