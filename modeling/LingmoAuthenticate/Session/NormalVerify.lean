import Mathlib.Data.List.Induction
import LingmoAuthenticate.Lib.GoMap
import LingmoAuthenticate.Lib.Machine
import LingmoAuthenticate.Session.Status

/-!
# The single-factor controller: `normal_verify.go`

The latest codes of the transactions (`txResultMap`), which of the keyboard types have been
answered (`inputMap`), and the loop that receives the statuses.

* `verdict_eq`: the loop over the codes, in any order; `adjudge_eq_success` and
  `adjudge_eq_failure` are the verdicts it gives.
* `NormalInv`: a type has a recorded code other than "unknown" only after its input is in.
* `lastCode hist t` is the latest counted code of a factor, and `CountInv` says what the three parts
  of the state are in terms of it; `singleFactor_verdict` is the verdict after every history.
-/

namespace LingmoAuthenticate.Session

open Lib AuthCommon

/-- The orders in which a loop may visit the codes. -/
abbrev CodeOrder := GoMap.RangeOrder AuthType StatusCode

/-- The orders in which a loop may visit the inputs. -/
abbrev InputOrder := GoMap.RangeOrder AuthType Bool

/-- The controller for one of several factors: its transactions, by their types, the last code of
each, the texts still to show, which of the types that take keyboard input have been heard of, and
whether any has. Source: `normal_verify.go`, `normalVerify`. -/
structure NormalVerify where
  txs : List AuthType
  txResultMap : GoMap AuthType StatusCode
  authMsg : List String
  inputMap : GoMap AuthType Bool
  hasInput : Bool

namespace NormalVerify

/-- Source: `normal_verify.go`, `newNormalVerify`, with the transactions that `init` sets. -/
def new (txs : List AuthType) : NormalVerify := ⟨txs, ∅, [], ∅, false⟩

/-- Source: `normal_verify.go`, `normalVerify.initResultMap`. -/
def initResultMap (g : NormalVerify) : NormalVerify :=
  { g with txResultMap := g.txs.foldl (fun rm t => rm.insert t .unknown) g.txResultMap }

/-- Source: `normal_verify.go`, `normalVerify.initInputMap`. -/
def initInputMap (g : NormalVerify) : NormalVerify :=
  { g with
    inputMap := g.txs.foldl (fun im t =>
      if authTypeToInputType t = .keyboard then im.insert t false else im) g.inputMap }

/-- The controller as its loop finds it. Source: `normal_verify.go`, `normalVerify.authenticate`,
the part that runs once. -/
def start (txs : List AuthType) : NormalVerify := (new txs).initResultMap.initInputMap

/-- Source: `normal_verify.go`, `normalVerify.addTxStatus`. -/
def addTxStatus (g : NormalVerify) (type0 : AuthType) (status : VerifyStatus) : NormalVerify :=
  if (g.txResultMap.lookup type0).isSome then
    { g with
      txResultMap := g.txResultMap.insert type0 status.s
      authMsg := g.authMsg ++ [type0.text ++ ": " ++ status.msg]
      inputMap := g.inputMap.insert type0 true }
  else g

/-- The loop of `adjudgeFinalResult`: a success ends it, and a failure is remembered unless it is
ignored. Source: `normal_verify.go`, `normalVerify.adjudgeFinalResult`. -/
def verdict (shouldIgnore : Bool) (res : StatusCode) :
    List (Σ _ : AuthType, StatusCode) → StatusCode
  | [] => res
  | e :: rest =>
      if e.2 = .success then .success
      else if e.2 = .failure then verdict shouldIgnore (if shouldIgnore then res else .failure) rest
      else verdict shouldIgnore res rest

/-- Failures are ignored while an input type has not been answered, once there was an answer.
Source: `normal_verify.go`, the inner loop of `normalVerify.adjudgeFinalResult`. -/
def ignoresFailure (g : NormalVerify) (order : InputOrder) : Bool :=
  g.hasInput && (order.visit g.inputMap).any fun e => !e.2

/-- Source: `normal_verify.go`, `normalVerify.adjudgeFinalResult`. -/
def adjudgeFinalResult (g : NormalVerify) (order : CodeOrder) (inputOrder : InputOrder) :
    StatusCode :=
  verdict (g.ignoresFailure inputOrder) .verify (order.visit g.txResultMap)

/-- Source: `normal_verify.go`, `normalVerify.getFinalAuthMsg`. -/
def getFinalAuthMsg (g : NormalVerify) : String := ", ".intercalate g.authMsg

/-- What a counted status changes. Source: `normal_verify.go`, `normalVerify.listenResultCh`. -/
def count (g : NormalVerify) (type0 : AuthType) (status : VerifyStatus) : NormalVerify :=
  let g := g.addTxStatus type0 status
  if authTypeToInputType type0 = .keyboard then { g with hasInput := true } else g

/-- One round of the loop of the controller: what it received, and the calls it makes. The texts
of statuses are shown through `translate`.
Source: `normal_verify.go`, `normalVerify.listenResultCh`. -/
def receive (translate : String → String) (g : NormalVerify) (tx : Option VirtualTx)
    (order : CodeOrder) (inputOrder : InputOrder) : NormalVerify × List ProxyCall :=
  match tx with
  | none => (g, [])
  | some tx =>
      match tx.status with
      | none => (g, [])
      | some status =>
          let flag : ℤ := authTypeToFlag tx.type0
          let emitted := ProxyCall.emitStatus flag status.s (translate status.msg)
          if tx.kind.shouldIgnore status.s then (g, [emitted])
          else
            let g := g.count tx.type0 status
            let res := g.adjudgeFinalResult order inputOrder
            (g, [emitted, .updateLimits status.s flag] ++
              if res = .success ∨ res = .failure then
                [.emitStatus allAuthenticationFlag res g.getFinalAuthMsg,
                  .updateLimits res allAuthenticationFlag]
              else [])

/-- One round as a step: what is received, and the orders of the loops. -/
def step (translate : String → String) (g : NormalVerify)
    (a : Option VirtualTx × CodeOrder × InputOrder) : Option (NormalVerify × List ProxyCall) :=
  some (g.receive translate a.1 a.2.1 a.2.2)

/-! ## The verdict -/

/-- The loop over the codes, in any order. -/
theorem verdict_eq (shouldIgnore : Bool) (res : StatusCode)
    (es : List (Σ _ : AuthType, StatusCode)) :
    verdict shouldIgnore res es =
      if ∃ e ∈ es, e.2 = .success then .success
      else if shouldIgnore = false ∧ ∃ e ∈ es, e.2 = .failure then .failure
      else res := by
  induction es generalizing res with
  | nil => simp [verdict]
  | cons e es ih =>
      rw [verdict]
      by_cases hs : e.2 = .success
      · simp [hs]
      · by_cases hf : e.2 = .failure
        · rw [if_neg hs, if_pos hf, ih]
          simp only [List.mem_cons, exists_eq_or_imp, hf, reduceCtorEq, false_or, true_or, and_true]
          cases shouldIgnore <;> simp
        · rw [if_neg hs, if_neg hf, ih]
          simp only [List.mem_cons, exists_eq_or_imp, hs, hf, false_or]

/-- A code is visited exactly when a type has it. -/
theorem exists_visited_iff {g : NormalVerify} (order : CodeOrder) (code : StatusCode) :
    (∃ e ∈ order.visit g.txResultMap, e.2 = code) ↔ ∃ t, g.txResultMap.lookup t = some code := by
  constructor
  · rintro ⟨⟨t, c⟩, he, rfl⟩
    exact ⟨t, (order.ranges _).mem_iff.mp he⟩
  · rintro ⟨t, ht⟩
    exact ⟨⟨t, code⟩, (order.ranges _).mem_iff.mpr ht, rfl⟩

/-- When failures are ignored. -/
theorem ignoresFailure_iff {g : NormalVerify} (order : InputOrder) :
    g.ignoresFailure order = true ↔
      g.hasInput = true ∧ ∃ t, g.inputMap.lookup t = some false := by
  unfold ignoresFailure
  rw [Bool.and_eq_true, List.any_eq_true]
  refine and_congr_right ?_
  intro _
  constructor
  · rintro ⟨⟨t, b⟩, he, hb⟩
    have hl := (order.ranges _).mem_iff.mp he
    exact ⟨t, by simpa using (show b = false by simpa using hb) ▸ hl⟩
  · rintro ⟨t, ht⟩
    exact ⟨⟨t, false⟩, (order.ranges _).mem_iff.mpr ht, rfl⟩

/-- When the verdict is success, whatever the orders of the loops. -/
theorem adjudge_eq_success (g : NormalVerify) (order : CodeOrder) (inputOrder : InputOrder) :
    g.adjudgeFinalResult order inputOrder = .success ↔
      ∃ t, g.txResultMap.lookup t = some .success := by
  unfold adjudgeFinalResult
  rw [verdict_eq, ← exists_visited_iff order]
  split_ifs with hs hf <;> simp [hs]

/-- When the verdict is failure, whatever the orders of the loops. -/
theorem adjudge_eq_failure (g : NormalVerify) (order : CodeOrder) (inputOrder : InputOrder) :
    g.adjudgeFinalResult order inputOrder = .failure ↔
      (¬ ∃ t, g.txResultMap.lookup t = some .success) ∧
        (∃ t, g.txResultMap.lookup t = some .failure) ∧
          ¬ (g.hasInput = true ∧ ∃ t, g.inputMap.lookup t = some false) := by
  unfold adjudgeFinalResult
  rw [verdict_eq, ← exists_visited_iff order, ← exists_visited_iff order,
    ← ignoresFailure_iff inputOrder, Bool.not_eq_true]
  split_ifs with hs hf
  · simp [hs]
  · simp only [true_iff]
    exact ⟨hs, hf.2, hf.1⟩
  · simp only [false_iff]
    exact fun h => hf ⟨h.2.2, h.2.1⟩

/-! ## What the loop keeps -/

/-- At the start every type of the session has the code "unknown". -/
theorem lookup_start (txs : List AuthType) (t : AuthType) :
    (start txs).txResultMap.lookup t = if t ∈ txs then some .unknown else none := by
  have h := GoMap.lookup_foldl_insert (fun _ => True) StatusCode.unknown txs ∅ t
  simpa [start, initResultMap, initInputMap, new] using h

/-- At the start no keyboard type of the session has been answered. -/
theorem lookup_inputMap_start (txs : List AuthType) (t : AuthType) :
    (start txs).inputMap.lookup t =
      if t ∈ txs ∧ authTypeToInputType t = .keyboard then some false else none := by
  have h := GoMap.lookup_foldl_insert (fun t => authTypeToInputType t = .keyboard) false txs ∅ t
  simpa [start, initResultMap, initInputMap, new] using h

/-- A type of the session has been answered once it has a code. -/
def NormalInv (g : NormalVerify) : Prop :=
  ∀ t s, g.txResultMap.lookup t = some s → s ≠ .unknown → g.inputMap.lookup t = some true

/-- At the start no type has a code. -/
theorem normalInv_start (txs : List AuthType) : (start txs).NormalInv := by
  intro t s hs hne
  rw [lookup_start] at hs
  split_ifs at hs
  · exact absurd (Option.some.inj hs).symm hne

/-- Recording a code answers its type. -/
theorem NormalInv.addTxStatus {g : NormalVerify} (h : g.NormalInv) (type0 : AuthType)
    (status : VerifyStatus) : (g.addTxStatus type0 status).NormalInv := by
  unfold NormalVerify.addTxStatus
  split_ifs
  · intro t s hs hne
    dsimp only at hs ⊢
    by_cases ht : t = type0
    · rw [ht, AList.lookup_insert]
    · rw [AList.lookup_insert_ne ht] at hs ⊢
      exact h t s hs hne
  · exact h

/-- Each round keeps the invariant. -/
theorem normalInv_step {translate : String → String} {g g' : NormalVerify} (h : g.NormalInv)
    {a : Option VirtualTx × CodeOrder × InputOrder} {calls : List ProxyCall}
    (hs : g.step translate a = some (g', calls)) : g'.NormalInv := by
  obtain ⟨tx, order, inputOrder⟩ := a
  rw [step, Option.some.injEq] at hs
  rcases tx with _ | ⟨kind, t, _ | status⟩
  · cases hs
    exact h
  · cases hs
    exact h
  · unfold receive at hs
    dsimp only at hs
    have hcount : (g.count t status).NormalInv := by
      unfold count
      dsimp only
      split_ifs
      · exact h.addTxStatus t status
      · exact h.addTxStatus t status
    split_ifs at hs <;> cases hs
    · exact h
    · exact hcount
    · exact hcount

/-! ## The verdict after a history -/

/-- The factor and the code that a counted status reports. -/
def counted (tx : Option VirtualTx) : Option (AuthType × StatusCode) :=
  tx.bind fun tx => tx.status.bind fun status =>
    if tx.kind.shouldIgnore status.s then none else some (tx.type0, status.s)

/-- The latest counted code of a factor, if any. -/
def lastCode (hist : List (Option VirtualTx)) (t : AuthType) : Option StatusCode :=
  hist.foldl (fun last tx =>
    match counted tx with
    | some (u, code) => if u = t then some code else last
    | none => last) none

/-- A keyboard factor has reported, and another one of the session has not yet. -/
def AwaitsInput (txs : List AuthType) (hist : List (Option VirtualTx)) : Prop :=
  (∃ t, authTypeToInputType t = .keyboard ∧ (lastCode hist t).isSome) ∧
    ∃ t ∈ txs, authTypeToInputType t = .keyboard ∧ lastCode hist t = none

/-- One more status received. -/
theorem lastCode_append (hist : List (Option VirtualTx)) (tx : Option VirtualTx) (t : AuthType) :
    lastCode (hist ++ [tx]) t =
      match counted tx with
      | some (u, code) => if u = t then some code else lastCode hist t
      | none => lastCode hist t := by
  unfold lastCode
  rw [List.foldl_append]
  rfl

/-- The three parts of the state are what the history makes of them: the last code of each type, the
keyboard types that nothing was heard of, and whether any was heard of. -/
structure CountInv (txs : List AuthType) (hist : List (Option VirtualTx)) (g : NormalVerify) :
    Prop where
  codes : ∀ t, g.txResultMap.lookup t =
    if t ∈ txs then some ((lastCode hist t).getD .unknown) else none
  awaited : ∀ t, g.inputMap.lookup t = some false ↔
    t ∈ txs ∧ authTypeToInputType t = .keyboard ∧ lastCode hist t = none
  input : g.hasInput = true ↔
    ∃ t, authTypeToInputType t = .keyboard ∧ (lastCode hist t).isSome

/-- At the start nothing has been reported. -/
theorem countInv_start (txs : List AuthType) : CountInv txs [] (start txs) := by
  refine ⟨fun t => lookup_start txs t, ?_, ?_⟩
  · intro t
    rw [lookup_inputMap_start, Option.ite_none_right_eq_some]
    simp [lastCode]
  · simp [start, initResultMap, initInputMap, new, lastCode]

/-- A status that is not counted changes nothing. -/
theorem CountInv.skip {txs : List AuthType} {hist : List (Option VirtualTx)} {g : NormalVerify}
    (h : CountInv txs hist g) {tx : Option VirtualTx} (htx : counted tx = none) :
    CountInv txs (hist ++ [tx]) g := by
  have hsame : ∀ t, lastCode (hist ++ [tx]) t = lastCode hist t := by
    intro t
    rw [lastCode_append, htx]
  refine ⟨?_, ?_, ?_⟩
  · intro t
    rw [hsame, h.codes]
  · intro t
    rw [hsame, h.awaited]
  · simp only [hsame, h.input]

/-- Counting a status. -/
theorem CountInv.count {txs : List AuthType} {hist : List (Option VirtualTx)} {g : NormalVerify}
    (h : CountInv txs hist g) {tx : Option VirtualTx} {u : AuthType} {status : VerifyStatus}
    (htx : counted tx = some (u, status.s)) : CountInv txs (hist ++ [tx]) (g.count u status) := by
  have hlast : ∀ t, lastCode (hist ++ [tx]) t = if u = t then some status.s else lastCode hist t := by
    intro t
    rw [lastCode_append, htx]
  have hadd : CountInv txs (hist ++ [tx])
      { g.addTxStatus u status with
        hasInput := g.hasInput || decide (authTypeToInputType u = .keyboard) } := by
    refine ⟨?_, ?_, ?_⟩
    · intro t
      -- the code is recorded where the factor is one of the session
      rw [hlast]
      dsimp only [addTxStatus]
      by_cases hut : u = t
      · subst hut
        rw [if_pos rfl, h.codes]
        by_cases hu : u ∈ txs
        · simp [hu]
        · simp [hu, h.codes]
      · rw [if_neg hut, ← h.codes]
        split_ifs
        · exact AList.lookup_insert_ne (Ne.symm hut)
        · rfl
    · intro t
      rw [hlast]
      dsimp only [addTxStatus]
      by_cases hut : u = t
      · subst hut
        rw [if_pos rfl, h.codes]
        by_cases hu : u ∈ txs
        · simp [hu]
        · simp [hu, h.awaited]
      · rw [if_neg hut, ← h.awaited]
        split_ifs
        · rw [AList.lookup_insert_ne (Ne.symm hut)]
        · rfl
    · dsimp only
      rw [Bool.or_eq_true, decide_eq_true_eq, h.input]
      constructor
      · rintro (⟨t, hkey, hsome⟩ | hkey)
        · refine ⟨t, hkey, ?_⟩
          rw [hlast]
          split_ifs
          · rfl
          · exact hsome
        · exact ⟨u, hkey, by rw [hlast, if_pos rfl]; rfl⟩
      · rintro ⟨t, hkey, hsome⟩
        rw [hlast] at hsome
        split_ifs at hsome with hut
        · exact .inr (hut ▸ hkey)
        · exact .inl ⟨t, hkey, hsome⟩
  have hinput : (g.addTxStatus u status).hasInput = g.hasInput := by
    unfold addTxStatus
    split_ifs <;> rfl
  unfold NormalVerify.count
  dsimp only
  split_ifs with hkey
  · simpa [hkey] using hadd
  · simpa [hkey, ← hinput] using hadd

/-- One round of the loop keeps the invariant. -/
theorem CountInv.step {txs : List AuthType} {hist : List (Option VirtualTx)} {g : NormalVerify}
    (h : CountInv txs hist g) (translate : String → String)
    (a : Option VirtualTx × CodeOrder × InputOrder) :
    ∃ g' calls, g.step translate a = some (g', calls) ∧ CountInv txs (hist ++ [a.1]) g' := by
  obtain ⟨tx, order, inputOrder⟩ := a
  refine ⟨_, _, rfl, ?_⟩
  dsimp only [receive]
  rcases tx with _ | ⟨kind, t, _ | status⟩
  · exact h.skip rfl
  · exact h.skip rfl
  · dsimp only
    split_ifs with hign
    · exact h.skip (by simp [counted, hign])
    · exact h.count (by simp [counted, hign])
    · exact h.count (by simp [counted, hign])

/-- The invariant after every history. -/
theorem countInv_run (translate : String → String) (txs : List AuthType)
    (acts : List (Option VirtualTx × CodeOrder × InputOrder)) :
    ∃ g calls, run (step translate) (start txs) acts = some (g, calls) ∧
      CountInv txs (acts.map Prod.fst) g := by
  induction acts using List.reverseRecOn with
  | nil => exact ⟨start txs, [], rfl, countInv_start txs⟩
  | append_singleton acts a ih =>
      obtain ⟨g, calls, hrun, hinv⟩ := ih
      obtain ⟨g', calls', hs, hinv'⟩ := hinv.step translate a
      refine ⟨g', calls ++ [calls'], run_append.mpr ⟨g, calls, _, hrun, run_of_step hs, rfl⟩, ?_⟩
      simpa using hinv'

/-- What the verdict of the controller means after a history of statuses, in whatever order the maps
are visited: success where the last code of some type is one, failure where none is, some is a
failure and no keyboard input is awaited, and else neither. -/
structure VerdictSpec (txs : List AuthType) (hist : List (Option VirtualTx)) (g : NormalVerify) :
    Prop where
  success : ∀ order inputOrder, g.adjudgeFinalResult order inputOrder = .success ↔
    ∃ t ∈ txs, lastCode hist t = some .success
  failure : ∀ order inputOrder, g.adjudgeFinalResult order inputOrder = .failure ↔
    (¬ ∃ t ∈ txs, lastCode hist t = some .success) ∧
      (∃ t ∈ txs, lastCode hist t = some .failure) ∧ ¬ AwaitsInput txs hist
  verify : ∀ order inputOrder, g.adjudgeFinalResult order inputOrder = .verify ↔
    g.adjudgeFinalResult order inputOrder ≠ .success ∧
      g.adjudgeFinalResult order inputOrder ≠ .failure
  orders : ∀ order inputOrder order' inputOrder',
    g.adjudgeFinalResult order inputOrder = g.adjudgeFinalResult order' inputOrder'

/-- A code other than "unknown" is recorded exactly when it is the latest one counted. -/
theorem CountInv.lookup_iff {txs : List AuthType} {hist : List (Option VirtualTx)}
    {g : NormalVerify} (h : CountInv txs hist g) {code : StatusCode} (hne : code ≠ .unknown) :
    (∃ t, g.txResultMap.lookup t = some code) ↔ ∃ t ∈ txs, lastCode hist t = some code := by
  refine exists_congr ?_
  intro t
  rw [h.codes, Option.ite_none_right_eq_some, Option.some.injEq]
  refine and_congr_right ?_
  intro _
  rcases lastCode hist t with _ | last
  · simp [Ne.symm hne]
  · simp

/-- Whether failures are ignored. -/
theorem CountInv.awaitsInput_iff {txs : List AuthType} {hist : List (Option VirtualTx)}
    {g : NormalVerify} (h : CountInv txs hist g) :
    (g.hasInput = true ∧ ∃ t, g.inputMap.lookup t = some false) ↔ AwaitsInput txs hist :=
  and_congr h.input (exists_congr h.awaited)

/-- The verdict is one of three. -/
theorem adjudge_trichotomy (g : NormalVerify) (order : CodeOrder) (inputOrder : InputOrder) :
    g.adjudgeFinalResult order inputOrder = .success ∨
      g.adjudgeFinalResult order inputOrder = .failure ∨
        g.adjudgeFinalResult order inputOrder = .verify := by
  unfold adjudgeFinalResult
  rw [verdict_eq]
  split_ifs <;> simp

/-- The verdict in terms of the history. -/
theorem CountInv.verdictSpec {txs : List AuthType} {hist : List (Option VirtualTx)}
    {g : NormalVerify} (h : CountInv txs hist g) : VerdictSpec txs hist g where
  success order inputOrder := by
    rw [adjudge_eq_success, h.lookup_iff (by decide)]
  failure order inputOrder := by
    rw [adjudge_eq_failure, h.lookup_iff (by decide), h.lookup_iff (by decide), h.awaitsInput_iff]
  verify order inputOrder := by
    rcases g.adjudge_trichotomy order inputOrder with heq | heq | heq <;> simp [heq]
  orders order inputOrder order' inputOrder' := by
    have hs : g.adjudgeFinalResult order inputOrder = .success ↔
        g.adjudgeFinalResult order' inputOrder' = .success := by
      rw [adjudge_eq_success, adjudge_eq_success]
    have hf : g.adjudgeFinalResult order inputOrder = .failure ↔
        g.adjudgeFinalResult order' inputOrder' = .failure := by
      rw [adjudge_eq_failure, adjudge_eq_failure]
    rcases g.adjudge_trichotomy order' inputOrder' with heq | heq | heq
    · rw [heq, hs, heq]
    · rw [heq, hf, heq]
    · rcases g.adjudge_trichotomy order inputOrder with heq' | heq' | heq'
      · rw [heq', hs.mp heq']
      · rw [heq', hf.mp heq']
      · rw [heq', heq]

/-- When a round emits a status of the whole session. -/
theorem emits_iff (translate : String → String) (g : NormalVerify) (tx : Option VirtualTx)
    (order : CodeOrder) (inputOrder : InputOrder) (code : StatusCode) :
    (∃ msg, ProxyCall.emitStatus allAuthenticationFlag code msg ∈
        (g.receive translate tx order inputOrder).2) ↔
      (counted tx).isSome ∧ (code = .success ∨ code = .failure) ∧
        (g.receive translate tx order inputOrder).1.adjudgeFinalResult order inputOrder = code := by
  unfold receive
  rcases tx with _ | ⟨kind, t, _ | status⟩
  · simp [counted]
  · simp [counted]
  · -- the flag of a factor is not the one of the session
    have hflag : allAuthenticationFlag ≠ (authTypeToFlag t : ℤ) := by
      unfold allAuthenticationFlag
      omega
    dsimp only
    split_ifs with hign hres
    · simp [counted, hign, hflag]
    · simp only [counted, hign, hflag, Option.bind_some, Bool.false_eq_true, if_false,
        Option.isSome_some, true_and, List.cons_append, List.nil_append, List.mem_cons,
        List.not_mem_nil, ProxyCall.emitStatus.injEq, reduceCtorEq, false_and, false_or, or_false,
        exists_and_left, exists_eq, and_true]
      constructor
      · rintro rfl
        exact ⟨hres, rfl⟩
      · exact fun h => h.2.symm
    · simp only [counted, hign, hflag, Option.bind_some, Bool.false_eq_true, if_false,
        Option.isSome_some, true_and, List.append_nil, List.mem_cons, List.not_mem_nil,
        ProxyCall.emitStatus.injEq, reduceCtorEq, false_and, or_false, exists_false, false_iff]
      rintro ⟨hcode, rfl⟩
      exact hres hcode

/-- **The single-factor verdict.** For every set of factors and every sequence of statuses
received, after each of them the verdict is success exactly when the latest counted code of some
factor of the session is, failure exactly when none is and the latest of some factor is a failure
while no keyboard factor is awaited, and no verdict otherwise; no order of a loop matters, and the
round emits the verdict for the whole session exactly when its status is counted and the verdict
is success or failure. -/
theorem singleFactor_verdict (translate : String → String) (txs : List AuthType)
    (acts : List (Option VirtualTx × CodeOrder × InputOrder))
    (a : Option VirtualTx × CodeOrder × InputOrder) :
    ∃ g calls last, run (step translate) (start txs) (acts ++ [a]) = some (g, calls ++ [last]) ∧
      VerdictSpec txs ((acts ++ [a]).map Prod.fst) g ∧
      ∀ code, (∃ msg, ProxyCall.emitStatus allAuthenticationFlag code msg ∈ last) ↔
        (counted a.1).isSome ∧ (code = .success ∨ code = .failure) ∧
          g.adjudgeFinalResult a.2.1 a.2.2 = code := by
  obtain ⟨g, calls, hrun, hinv⟩ := countInv_run translate txs acts
  obtain ⟨g', last, hs, hinv'⟩ := hinv.step translate a
  refine ⟨g', calls, last, run_append.mpr ⟨g, calls, _, hrun, run_of_step hs, rfl⟩, ?_, ?_⟩
  · rw [List.map_append]
    exact hinv'.verdictSpec
  · intro code
    obtain ⟨rfl, rfl⟩ := Prod.mk.inj (Option.some.inj hs)
    exact emits_iff translate g a.1 a.2.1 a.2.2 code

end NormalVerify

end LingmoAuthenticate.Session
