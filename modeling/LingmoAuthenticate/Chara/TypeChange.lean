import LingmoAuthenticate.Chara.Locks
import LingmoAuthenticate.Chara.Signals

/-!
# Types that a driver loses: `CharaDataManager.HandleDriverCharaTypeChange`

A driver that supports other types than before has its records matched with what it lists, where it
has gained one, and its actions told, where it has lost one. The actions are found by the bus name
of the driver, each of them is told with the code of a face, and the records of the types that are
gone are made unavailable on the way from one action to the next.

* `charaTypeChange`: what becomes of the records, and what is sent to the actions.
* `handleDriverCharaTypeChange_eq`: the operation that locks comes to the same records.
* `mem_codes_iff`, `available_charaTypeChange_iff`: what is sent, and which records are available.
* `TellsAllFaces`: the actions of the types that are gone are those that the bus name finds, they
  are of faces, and there is one, or no record that is still available.
* `charaTypeChange_ends_iff`: the actions end, nobody else hears of it and the records are
  unavailable, exactly there.
-/

namespace LingmoAuthenticate.Chara

open Lib Session

namespace Records

section

variable {serverName : String} {gone : CharaType}

/-- A record of this driver and of a type that is gone. -/
def OfGoneType (serverName : String) (gone : CharaType) (info : CharaInfo) : Prop :=
  info.serverName = serverName ∧ info.charaType &&& gone ≠ 0

instance (serverName : String) (gone : CharaType) (info : CharaInfo) :
    Decidable (OfGoneType serverName gone info) :=
  inferInstanceAs (Decidable (_ ∧ _))

/-- A record, once the type is gone. -/
def withoutType (serverName : String) (gone : CharaType) (info : CharaInfo) : CharaInfo :=
  if OfGoneType serverName gone info then { info with bAvailable := false } else info

theorem withoutType_idem (info : CharaInfo) :
    withoutType serverName gone (withoutType serverName gone info) =
      withoutType serverName gone info := by
  unfold withoutType
  by_cases hgone : OfGoneType serverName gone info
  · rw [if_pos hgone]
    split_ifs <;> rfl
  · rw [if_neg hgone, if_neg hgone]

theorem bAvailable_withoutType (info : CharaInfo) :
    (withoutType serverName gone info).bAvailable =
      (info.bAvailable && !decide (OfGoneType serverName gone info)) := by
  unfold withoutType
  split_ifs with hgone
  · simp [hgone]
  · simp [hgone]

/-- The loop, as one that changes the record that it comes to. -/
theorem setUnavailable_heap (m : Records) (order : Order) :
    (m.setUnavailable order serverName gone).heap =
      (order.visit m.charaInfoMap).foldl (fun heap e =>
        Function.update heap e.2 (withoutType serverName gone (heap e.2))) m.heap := by
  unfold setUnavailable
  dsimp only
  congr 1
  funext heap e
  unfold withoutType
  by_cases hgone : OfGoneType serverName gone (heap e.2)
  · rw [if_pos hgone]
    exact if_pos hgone
  · rw [if_neg hgone, Function.update_eq_self]
    exact if_neg hgone

/-- What such a loop makes of a record. -/
theorem foldl_withoutType (es : List (Σ _ : String, ℕ)) (heap : ℕ → CharaInfo) (r : ℕ) :
    es.foldl (fun heap e =>
      Function.update heap e.2 (withoutType serverName gone (heap e.2))) heap r =
      if r ∈ es.map Sigma.snd then withoutType serverName gone (heap r) else heap r := by
  induction es generalizing heap with
  | nil => rfl
  | cons e es ih =>
      rw [List.foldl_cons, ih, List.map_cons]
      by_cases hr : r = e.2
      · subst hr
        rw [Function.update_self, withoutType_idem, ite_self, if_pos (List.mem_cons_self ..)]
      · rw [Function.update_of_ne hr]
        exact if_congr (by simp [hr]) rfl rfl

/-- **Each record in the map is as it is without the type,** whatever the order of the loop. -/
theorem setUnavailable_apply {m : Records} {order : Order} {k : String} {r : ℕ}
    (h : m.charaInfoMap.lookup k = some r) :
    (m.setUnavailable order serverName gone).heap r =
      withoutType serverName gone (m.heap r) := by
  rw [setUnavailable_heap, foldl_withoutType, if_pos]
  exact List.mem_map_of_mem ((order.ranges m.charaInfoMap).mem_iff.mpr h)

/-- Another round changes nothing. -/
theorem setUnavailable_idem (m : Records) (order : Order) :
    (m.setUnavailable order serverName gone).setUnavailable order serverName gone =
      m.setUnavailable order serverName gone := by
  have hheap : ((m.setUnavailable order serverName gone).setUnavailable order serverName gone).heap
      = (m.setUnavailable order serverName gone).heap := by
    funext r
    rw [setUnavailable_heap, foldl_withoutType]
    show (if r ∈ (order.visit m.charaInfoMap).map Sigma.snd then _ else _) = _
    rw [setUnavailable_heap, foldl_withoutType]
    split_ifs
    · exact withoutType_idem _
    · rfl
  exact congrArg (Records.mk · m.charaInfoMap) hheap

end

end Records

namespace CharaDataManager

open Signals (CodeStatusInfo notSupportedCode cameraFlag)

/-! ## The change -/

/-- The action is found by the bus name of the driver, and is of a type that is gone. -/
def Told (m : CharaDataManager) (driver : CommonDriver) (gone : CharaType) (a : ℕ) : Prop :=
  (m.state.actions a).uniqueReceiverName = driver.uniqueName ∧
    (m.state.actions a).charaType &&& gone ≠ 0

instance (m : CharaDataManager) (driver : CommonDriver) (gone : CharaType) (a : ℕ) :
    Decidable (m.Told driver gone a) :=
  inferInstanceAs (Decidable (_ ∧ _))

/-- What an action is told. -/
def charaNotSupport (m : CharaDataManager) (a : ℕ) : CodeStatusInfo :=
  ⟨a, (m.state.actions a).uniqueSenderName, notSupportedCode (m.state.actions a).actionType,
    "chara not support"⟩

/-- The records are matched with what the driver lists, where it has gained a type. -/
def matchList (m : CharaDataManager) (env : DriverAnswers) (driver : CommonDriver)
    (old new : CharaType) : CharaDataManager :=
  if charaAdd old new ≠ 0 then
    m.setRecords fun records => records.handleDriverListChange env.order driver.service
      ((env.list driver.service).getD [])
  else m

/-- A round of the loop over the actions: the records of the types that are gone, and then the
code. -/
def tellAction (env : DriverAnswers) (driver : CommonDriver) (gone : CharaType)
    (r : CharaDataManager × List CodeStatusInfo) (e : Σ _ : String × CharaType, ℕ) :
    CharaDataManager × List CodeStatusInfo :=
  if r.1.Told driver gone e.2 then
    (r.1.setRecords fun records => records.setUnavailable env.order driver.service gone,
      r.2 ++ [r.1.charaNotSupport e.2])
  else r

/-- The records after a change of types, and what was sent to the actions.
Source: `charaDataManger/manager.go`, `CharaDataManager.HandleDriverCharaTypeChange`. -/
def charaTypeChange (m : CharaDataManager) (env : DriverAnswers)
    (actions : GoMap.RangeOrder (String × CharaType) ℕ) (driver : CommonDriver)
    (old new : CharaType) : CharaDataManager × List CodeStatusInfo :=
  let m := m.matchList env driver old new
  if charaDelete old new ≠ 0 then
    (actions.visit m.state.actionMap).foldl (tellAction env driver (charaDelete old new)) (m, [])
  else (m, [])

section

variable {m : CharaDataManager} {env : DriverAnswers}
  {actions : GoMap.RangeOrder (String × CharaType) ℕ} {driver : CommonDriver}
  {old new gone : CharaType}

/-- The types that were there and are not any more. -/
theorem charaDelete_eq (old new : CharaType) : charaDelete old new = old &&& ~~~new := by
  unfold charaDelete
  ext i hi
  simp only [BitVec.getElem_xor, BitVec.getElem_and, BitVec.getElem_not]
  cases old[i] <;> cases new[i] <;> rfl

/-- The loop over the actions tells those that it finds, and makes the records unavailable if there
is one. -/
theorem foldl_tellAction (es : List (Σ _ : String × CharaType, ℕ)) (m : CharaDataManager)
    (codes : List CodeStatusInfo) :
    es.foldl (tellAction env driver gone) (m, codes) =
      (if es.any fun e => m.Told driver gone e.2 then
          m.setRecords fun records => records.setUnavailable env.order driver.service gone
        else m,
        codes ++ (es.filter fun e => m.Told driver gone e.2).map fun e =>
          m.charaNotSupport e.2) := by
  induction es generalizing m codes with
  | nil => simp
  | cons e es ih =>
      rw [List.foldl_cons, List.any_cons, List.filter_cons]
      by_cases htold : m.Told driver gone e.2
      · have hround : tellAction env driver gone (m, codes) e =
            (m.setRecords fun records => records.setUnavailable env.order driver.service gone,
              codes ++ [m.charaNotSupport e.2]) := if_pos htold
        rw [hround, ih, if_pos (decide_eq_true htold), decide_eq_true htold, Bool.true_or,
          if_pos rfl, List.map_cons, List.append_assoc]
        refine Prod.ext ?_ rfl
        dsimp only
        split_ifs
        · exact congrArg (fun records => m.setRecords fun _ => records)
            (Records.setUnavailable_idem m.state.records env.order)
        · rfl
      · have hround : tellAction env driver gone (m, codes) e = (m, codes) := if_neg htold
        rw [hround, ih, decide_eq_false htold, Bool.false_or, if_neg Bool.false_ne_true]

/-- The actions are as they were while the records are matched. -/
theorem matchList_actions :
    (m.matchList env driver old new).state.actions = m.state.actions ∧
      (m.matchList env driver old new).state.actionMap = m.state.actionMap ∧
        (m.matchList env driver old new).state.records.charaInfoMap =
          m.state.records.charaInfoMap := by
  unfold matchList
  split_ifs
  · exact ⟨rfl, rfl, rfl⟩
  · exact ⟨rfl, rfl, rfl⟩

theorem told_matchList {a : ℕ} :
    (m.matchList env driver old new).Told driver gone a ↔ m.Told driver gone a := by
  unfold Told
  rw [matchList_actions.1]

theorem charaNotSupport_matchList (a : ℕ) :
    (m.matchList env driver old new).charaNotSupport a = m.charaNotSupport a := by
  unfold charaNotSupport
  rw [matchList_actions.1]

/-- The actions that run. -/
def Running (m : CharaDataManager) (a : ℕ) : Prop := ∃ k, m.state.actionMap.lookup k = some a

/-- **What is sent** is sent to the actions that the bus name of the driver finds. -/
theorem mem_codes_iff {c : CodeStatusInfo} :
    c ∈ (m.charaTypeChange env actions driver old new).2 ↔
      ∃ a, m.Running a ∧ m.Told driver (charaDelete old new) a ∧ c = m.charaNotSupport a := by
  unfold charaTypeChange
  dsimp only
  split_ifs with hgone
  · rw [foldl_tellAction, List.nil_append, List.mem_map]
    constructor
    · rintro ⟨e, he, rfl⟩
      obtain ⟨hmem, htold⟩ := List.mem_filter.mp he
      rw [decide_eq_true_eq, told_matchList] at htold
      rw [matchList_actions.2.1] at hmem
      exact ⟨e.2, ⟨e.1, (actions.ranges _).mem_iff.mp hmem⟩, htold, charaNotSupport_matchList _⟩
    · rintro ⟨a, ⟨k, hk⟩, htold, rfl⟩
      refine ⟨⟨k, a⟩, List.mem_filter.mpr ⟨?_, ?_⟩, charaNotSupport_matchList _⟩
      · rw [matchList_actions.2.1]
        exact (actions.ranges _).mem_iff.mpr hk
      · rw [decide_eq_true_eq, told_matchList]
        exact htold
  · refine iff_of_false List.not_mem_nil ?_
    rintro ⟨a, -, ⟨-, htype⟩, -⟩
    rw [not_not.mp hgone] at htype
    exact htype (BitVec.and_zero)

/-- The availability of a record once the records were matched. -/
def matched (m : CharaDataManager) (env : DriverAnswers) (driver : CommonDriver)
    (old new : CharaType) (r : ℕ) : Bool :=
  if charaAdd old new ≠ 0 then
    m.state.records.listed env.order driver.service ((env.list driver.service).getD []) r
  else (m.state.records.heap r).bAvailable

theorem heap_matchList (r : ℕ) :
    (m.matchList env driver old new).state.records.heap r =
      { m.state.records.heap r with bAvailable := m.matched env driver old new r } := by
  unfold matchList matched
  split_ifs with hadd
  · exact Records.foldl_setAvailable driver.service ((env.list driver.service).getD [])
      (env.order.visit m.state.records.charaInfoMap) m.state.records.heap r
  · rfl

/-- Some action is told. -/
theorem any_told_iff :
    ((actions.visit (m.matchList env driver old new).state.actionMap).any fun e =>
      (m.matchList env driver old new).Told driver gone e.2) = true ↔
      ∃ a, m.Running a ∧ m.Told driver gone a := by
  rw [List.any_eq_true, matchList_actions.2.1]
  constructor
  · rintro ⟨e, he, htold⟩
    rw [decide_eq_true_eq, told_matchList] at htold
    exact ⟨e.2, ⟨e.1, (actions.ranges _).mem_iff.mp he⟩, htold⟩
  · rintro ⟨a, ⟨k, hk⟩, htold⟩
    refine ⟨⟨k, a⟩, (actions.ranges _).mem_iff.mpr hk, ?_⟩
    rw [decide_eq_true_eq, told_matchList]
    exact htold

/-- **A record is available** after the change where it was after it was matched, unless an action
was told and the record is of the driver and of a type that is gone. -/
theorem available_charaTypeChange_iff {k : String} {r : ℕ}
    (hk : m.state.records.charaInfoMap.lookup k = some r) :
    ((m.charaTypeChange env actions driver old new).1.state.records.heap r).bAvailable = true ↔
      m.matched env driver old new r = true ∧
        ¬ ((∃ a, m.Running a ∧ m.Told driver (charaDelete old new) a) ∧
          Records.OfGoneType driver.service (charaDelete old new) (m.state.records.heap r)) := by
  have hmatched := @heap_matchList m env driver old new r
  have hk' : (m.matchList env driver old new).state.records.charaInfoMap.lookup k = some r := by
    rw [matchList_actions.2.2]
    exact hk
  unfold charaTypeChange
  dsimp only
  split_ifs with hgone
  · rw [foldl_tellAction]
    dsimp only
    by_cases htold : ∃ a, m.Running a ∧ m.Told driver (charaDelete old new) a
    · rw [if_pos (any_told_iff.mpr htold)]
      show ((Records.setUnavailable _ _ _ _).heap r).bAvailable = true ↔ _
      rw [Records.setUnavailable_apply hk', Records.bAvailable_withoutType, hmatched,
        Bool.and_eq_true, Bool.not_eq_true', decide_eq_false_iff_not]
      exact and_congr_right fun _ => not_congr (iff_and_self.mpr fun _ => htold)
    · rw [if_neg fun h => htold (any_told_iff.mp h), hmatched]
      exact (and_iff_left fun h => htold h.1).symm
  · rw [hmatched]
    refine (and_iff_left ?_).symm
    rintro ⟨⟨a, -, -, htype⟩, -⟩
    rw [not_not.mp hgone] at htype
    exact htype BitVec.and_zero

/-- The actions that are told are those of which one is looked for. -/
theorem affected_eq_any (m : CharaDataManager) (driver : CommonDriver) (gone : CharaType)
    (actions : GoMap.RangeOrder (String × CharaType) ℕ) :
    m.affected driver gone =
      (actions.visit m.state.actionMap).any fun e => m.Told driver gone e.2 :=
  ((actions.ranges m.state.actionMap).any_eq).symm

/-- The second half of the change, as what it does to the records. -/
theorem tellActions_fst (m : CharaDataManager) :
    (if charaDelete old new ≠ 0 then
      (actions.visit m.state.actionMap).foldl (tellAction env driver (charaDelete old new)) (m, [])
    else (m, [])).1 =
      if m.affected driver (charaDelete old new) then
        m.setRecords fun records =>
          records.setUnavailable env.order driver.service (charaDelete old new)
      else m := by
  by_cases hdelete : charaDelete old new = 0
  · have hnone : m.affected driver 0 = false := by
      rw [affected_eq_any m driver 0 actions, List.any_eq_false]
      intro e _
      rw [decide_eq_true_eq]
      exact fun htold => htold.2 BitVec.and_zero
    rw [if_neg (not_not_intro hdelete), hdelete, hnone]
    rfl
  · rw [if_pos hdelete, foldl_tellAction, affected_eq_any m driver _ actions]

/-- A change under the mutex of the actions, where it is not held. -/
theorem withLockIf_modify {held : Held Mutex} (h : ¬ held.Conflicts .actionMapMtx .read) (c : Bool)
    (f : CharaDataManager → CharaDataManager) (m : CharaDataManager) :
    withLockIf c .actionMapMtx .read (Locking.modify f) held m = .ok ((), f m) := by
  unfold withLockIf
  split_ifs
  · exact if_neg h
  · rfl

/-- The operation that locks comes to the same records, where neither mutex is held before. -/
theorem handleDriverCharaTypeChange_eq {held : Held Mutex}
    (hinfo : ¬ held.Conflicts .charaInfoMtx .write)
    (haction : ¬ held.Conflicts .actionMapMtx .read) :
    handleDriverCharaTypeChange env driver old new held m =
      .ok ((), (m.charaTypeChange env actions driver old new).1) := by
  unfold handleDriverCharaTypeChange charaTypeChange matchList
  dsimp only
  rw [tellActions_fst]
  by_cases hadd : charaAdd old new = 0
  · rw [if_neg (not_not_intro hadd), if_neg (not_not_intro hadd), withLockIf,
      if_neg (by simp [hadd])]
    exact withLockIf_modify haction _ _ m
  · rw [if_pos hadd, if_pos hadd, withLockIf, if_pos (decide_eq_true hadd), Locking.withLock,
      if_neg hinfo]
    exact withLockIf_modify (not_conflicts_cons (by decide) haction) _ _ _

/-! ## The actions end -/

/-- Source: `charaDataManger/manager.go`, `ActionInfo.ReceiverName`. -/
def OfDriver (m : CharaDataManager) (driver : CommonDriver) (a : ℕ) : Prop :=
  (m.state.actions a).receiverName = driver.service

/-- An action that runs, and whose type the driver has lost. -/
def Loses (m : CharaDataManager) (old new : CharaType) (a : ℕ) : Prop :=
  m.Running a ∧ (m.state.actions a).charaType &&& (old &&& ~~~new) ≠ 0

/-- Who receives the code takes it that the driver is gone: the listener of an enrolment releases
the action, and a verification fails and ends. Source: `charaManager/manager.go`, in
`Manager.listenStatusInfo`; `session/face_tx.go`, `FaceTx.verify`; `session/iris_tx.go`,
`IrisTx.verify`. -/
def EndsAsDisconnected (info : ActionInfo) (code : ℤ) : Prop :=
  match info.actionType with
  | .enroll =>
      (info.charaType = authenticationFlagFace ∧ code = Signals.faceEnrollStatusCodeDisconnected) ∨
        (info.charaType = authenticationFlagIris ∧ code = Signals.irisEnrollDisconnected)
  | .verify => ∃ camera : CameraType, info.charaType = cameraFlag camera ∧
      camera.isEndedStatus code = true ∧ camera.sendDoneResult code = .failure

/-- The actions of the driver whose types are gone end, nothing is sent to another one, and the
records of the driver of those types are not available. -/
structure EndsActions (m : CharaDataManager) (env : DriverAnswers)
    (actions : GoMap.RangeOrder (String × CharaType) ℕ) (driver : CommonDriver)
    (old new : CharaType) : Prop where
  ended : ∀ a, m.Loses old new a → m.OfDriver driver a →
    ∃ c ∈ (m.charaTypeChange env actions driver old new).2, c.actionId = a ∧
      EndsAsDisconnected (m.state.actions a) c.code
  others : ∀ c ∈ (m.charaTypeChange env actions driver old new).2,
    m.Loses old new c.actionId ∧ m.OfDriver driver c.actionId
  unavailable : ∀ k r, m.state.records.charaInfoMap.lookup k = some r →
    (m.state.records.heap r).serverName = driver.service →
      (m.state.records.heap r).charaType &&& (old &&& ~~~new) ≠ 0 →
        ((m.charaTypeChange env actions driver old new).1.state.records.heap r).bAvailable = false

/-- Of the actions whose types are gone, those of the driver are the ones that know it by its bus
name, and all of them are of faces; and there is one, or no record of the driver of those types that
is available after it was matched. -/
structure TellsAllFaces (m : CharaDataManager) (env : DriverAnswers) (driver : CommonDriver)
    (old new : CharaType) : Prop where
  names : ∀ a, m.Loses old new a →
    (m.OfDriver driver a ↔ (m.state.actions a).uniqueReceiverName = driver.uniqueName)
  faces : ∀ a, m.Loses old new a → m.OfDriver driver a →
    (m.state.actions a).charaType = authenticationFlagFace
  reached : (∃ a, m.Loses old new a ∧ m.OfDriver driver a) ∨
    ∀ k r, m.state.records.charaInfoMap.lookup k = some r →
      (m.state.records.heap r).serverName = driver.service →
        (m.state.records.heap r).charaType &&& (old &&& ~~~new) ≠ 0 →
          m.matched env driver old new r = false

/-- What is sent means to a face that the driver is gone, and to nobody else. -/
theorem endsAsDisconnected_iff {a : ℕ} :
    EndsAsDisconnected (m.state.actions a) (m.charaNotSupport a).code ↔
      (m.state.actions a).charaType = authenticationFlagFace := by
  unfold EndsAsDisconnected charaNotSupport notSupportedCode
  rcases (m.state.actions a).actionType
  · constructor
    · rintro (⟨hface, -⟩ | ⟨-, hcode⟩)
      · exact hface
      · exact absurd hcode (show (13 : ℤ) ≠ 9 by decide)
    · exact fun hface => .inl ⟨hface, rfl⟩
  · constructor
    · rintro ⟨camera, htype, hend, -⟩
      cases camera with
      | face => exact htype
      | iris => exact absurd hend (show ¬ CameraType.iris.isEndedStatus 13 = true by decide)
    · exact fun hface => ⟨.face, hface, rfl, rfl⟩

/-- Who is told has lost its type, and knows the driver by its bus name. -/
theorem told_iff {a : ℕ} :
    m.Running a ∧ m.Told driver (charaDelete old new) a ↔
      m.Loses old new a ∧ (m.state.actions a).uniqueReceiverName = driver.uniqueName := by
  unfold Told Loses
  rw [charaDelete_eq]
  tauto

/-- **The actions end, nobody else hears of it and the records are unavailable** exactly where the
actions of the types that are gone are those that know the driver by its bus name, are of faces, and
there is one or no record that is left available. -/
theorem charaTypeChange_ends_iff (m : CharaDataManager) (env : DriverAnswers)
    (actions : GoMap.RangeOrder (String × CharaType) ℕ) (driver : CommonDriver)
    (old new : CharaType) :
    m.EndsActions env actions driver old new ↔ m.TellsAllFaces env driver old new := by
  constructor
  · intro h
    have htold : ∀ a, m.Loses old new a → m.OfDriver driver a →
        m.Told driver (charaDelete old new) a ∧
          EndsAsDisconnected (m.state.actions a) (m.charaNotSupport a).code := by
      intro a hloses hdriver
      obtain ⟨c, hc, rfl, hends⟩ := h.ended a hloses hdriver
      obtain ⟨a, -, htold, rfl⟩ := mem_codes_iff.mp hc
      exact ⟨htold, hends⟩
    have hothers : ∀ a, m.Running a ∧ m.Told driver (charaDelete old new) a →
        m.Loses old new a ∧ m.OfDriver driver a :=
      fun a ha => h.others _ (mem_codes_iff.mpr ⟨a, ha.1, ha.2, rfl⟩)
    refine ⟨fun a hloses => ⟨fun hdriver => (htold a hloses hdriver).1.1, fun hname => ?_⟩,
      fun a hloses hdriver => endsAsDisconnected_iff.mp (htold a hloses hdriver).2, ?_⟩
    · exact (hothers a (told_iff.mpr ⟨hloses, hname⟩)).2
    · by_cases hany : ∃ a, m.Running a ∧ m.Told driver (charaDelete old new) a
      · obtain ⟨a, ha⟩ := hany
        exact .inl ⟨a, hothers a ha⟩
      · right
        intro k r hk hname htype
        have hfalse := h.unavailable k r hk hname htype
        rw [← Bool.not_eq_true, available_charaTypeChange_iff hk] at hfalse
        rw [← Bool.not_eq_true]
        exact fun hmatched => hfalse ⟨hmatched, fun hnone => hany hnone.1⟩
  · intro h
    have htold : ∀ a, m.Loses old new a → m.OfDriver driver a →
        m.Running a ∧ m.Told driver (charaDelete old new) a :=
      fun a hloses hdriver => told_iff.mpr ⟨hloses, (h.names a hloses).mp hdriver⟩
    constructor
    · intro a hloses hdriver
      obtain ⟨hrunning, ha⟩ := htold a hloses hdriver
      exact ⟨m.charaNotSupport a, mem_codes_iff.mpr ⟨a, hrunning, ha, rfl⟩, rfl,
        endsAsDisconnected_iff.mpr (h.faces a hloses hdriver)⟩
    · intro c hc
      obtain ⟨a, hrunning, ha, rfl⟩ := mem_codes_iff.mp hc
      obtain ⟨hloses, hname⟩ := told_iff.mp ⟨hrunning, ha⟩
      exact ⟨hloses, (h.names a hloses).mpr hname⟩
    · intro k r hk hname htype
      rw [← Bool.not_eq_true, available_charaTypeChange_iff hk, charaDelete_eq]
      rintro ⟨hmatched, hnot⟩
      rcases h.reached with ⟨a, hloses, hdriver⟩ | hnone
      · refine hnot ⟨⟨a, ?_⟩, hname, htype⟩
        rw [← charaDelete_eq]
        exact htold a hloses hdriver
      · rw [hnone k r hk hname htype] at hmatched
        cases hmatched

end

/-- A driver of irises. -/
def irisDriver : CommonDriver := ⟨"com.lingmo.iris", authenticationFlagIris, ":1.9"⟩

/-- A client enrols an iris. -/
def irisEnrols : CharaDataManager :=
  { withDriver irisDriver with
    state := { State.init with
      actions := fun _ =>
        ⟨":1.1", ":1.9", "com.lingmo.iris", .enroll, authenticationFlagIris, faceEnrollInvalid⟩
      actionMap := AList.singleton (":1.1", authenticationFlagIris) 0
      refs := 1 } }

/-- The driver loses the iris, and the client is told with the code of a face. -/
theorem iris_not_ended :
    ¬ ∀ (m : CharaDataManager) (env : DriverAnswers)
      (actions : GoMap.RangeOrder (String × CharaType) ℕ) (driver : CommonDriver)
      (old new : CharaType), m.EndsActions env actions driver old new := by
  intro hall
  have h := hall irisEnrols ⟨fun _ => none, fun _ => none, fun _ => none, .listed _ _, .listed _ _⟩
    (.listed _ _) irisDriver authenticationFlagIris 0
  obtain ⟨c, hc, hca, hends⟩ := h.ended 0 ⟨⟨(":1.1", authenticationFlagIris), rfl⟩, by decide⟩ rfl
  obtain ⟨a, -, -, rfl⟩ := mem_codes_iff.mp hc
  obtain rfl : a = 0 := hca
  exact absurd (endsAsDisconnected_iff.mp hends) (by decide)

end CharaDataManager

end LingmoAuthenticate.Chara
