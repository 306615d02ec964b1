import LingmoAuthenticate.Limits.Restart

/-!
# Saving the limits: three steps of every call

`Manager.fail`, `Manager.success` and `Manager.resetLimits` change the table under `limitsMu`, take
a snapshot under `limitsMu` again, and write it under `saveLimitsMu`. Between the three steps any
number of other calls can take theirs, so that snapshots may be written in another order than they
were taken.

* `SaveState.step` is one such step of one call; the number of the snapshot a call holds, and of
  the one in the file, are kept for the record and read by no step.
* `SaveInv`: the newest snapshot is of the present table, unless a call is about to take a newer
  one; and it is in the file, unless a call is about to write it.
* `file_current_of_inOrder`: where no snapshot is written over a newer one, the file is up to date
  whenever no call is under way.
* `stale_snapshot_written`: in the order that the source allows, it is not.
-/

namespace LingmoAuthenticate.Limits

open Lib AuthCommon

/-! ## The steps -/

/-- The calls that change the limits and save them: a failed try, a success, and the reset of all
limits of a user. -/
inductive UpdateCall where
  | fail (k : UserKey) (t : AuthType)
  | success (k : UserKey) (t : AuthType)
  | resetLimits (k : UserKey)
  deriving DecidableEq, Repr

/-- The first step of a call. The inner `none` is the early return of a call that finds no entry,
the outer one a panic. Source: `manager.go`, the part of each function under `limitsMu`. -/
def UpdateCall.update (m : LimitTable) (now : ℤ) : UpdateCall → Option (Option LimitTable)
  | .fail k t => some (m.fail k t now)
  | .success k t => some (m.success k t)
  | .resetLimits k => (m.resetLimits k).map some

/-- Where the call of a thread stands: not under way, before `getLimitStates`, or before
`saveLimitStates` with the snapshot it took, the `number`-th of all. -/
inductive Stage where
  | idle
  | updated
  | snapped (number : ℕ) (states : LimitStates)

/-- The limits, the files and the calls of all threads; `taken` counts the snapshots and `written`
is the number of the one in the file. -/
structure SaveState where
  limits : LimitTable
  files : StateFiles
  stage : ℕ → Stage
  taken : ℕ
  written : ℕ

/-- The steps of the calls, by the number of the call: it changes the table at an instant, takes a
snapshot of it, in some order of the loops, and writes the snapshot that it has taken. -/
inductive SaveStep where
  | update (i : ℕ) (now : ℤ) (call : UpdateCall)
  | snapshot (i : ℕ) (order : StatesOrder)
  | write (i : ℕ)

/-- The thread that takes the step. -/
def SaveStep.caller : SaveStep → ℕ
  | .update i _ _ | .snapshot i _ | .write i => i

namespace SaveState

/-- No call is under way. -/
def start (limits : LimitTable) (files : StateFiles) : SaveState where
  limits := limits
  files := files
  stage := fun _ => .idle
  taken := 0
  written := 0

/-- One step of one call; every write succeeds.
Source: `manager.go`, `Manager.fail`, `Manager.success` and `Manager.resetLimits`. -/
def step (s : SaveState) : SaveStep → Option (SaveState × Unit)
  | .update i now call =>
      match s.stage i with
      | .idle =>
          (call.update s.limits now).map fun r =>
            match r with
            | none => (s, ())
            | some m => ({ s with limits := m, stage := Function.update s.stage i .updated }, ())
      | _ => none
  | .snapshot i order =>
      match s.stage i with
      | .updated =>
          (s.limits.getLimitStates order).map fun states =>
            ({ s with stage := Function.update s.stage i (.snapped (s.taken + 1) states),
                      taken := s.taken + 1 }, ())
      | _ => none
  | .write i =>
      match s.stage i with
      | .snapped n states =>
          some ({ s with files := saveLimitStates states,
                         stage := Function.update s.stage i .idle,
                         written := n }, ())
      | _ => none

/-- No call is under way. -/
def Quiescent (s : SaveState) : Prop := ∀ i, s.stage i = .idle

/-- The newer file holds a snapshot of the present limits. -/
def FileCurrent (s : SaveState) : Prop :=
  ∃ order states, s.limits.getLimitStates order = some states ∧ s.files.v1 = .decoded states

/-- The step does not write a snapshot over a newer one. -/
def InOrder (s : SaveState) (a : SaveStep) : Prop :=
  ∀ i n states, a = .write i → s.stage i = .snapped n states → s.written < n

/-! ## What a step does -/

/-- The three steps, and the call that returns at once. -/
theorem step_cases {s s' : SaveState} {a : SaveStep} {o : Unit} (h : s.step a = some (s', o)) :
    s' = s ∨
    (∃ i now call m, a = .update i now call ∧ s.stage i = .idle ∧
      call.update s.limits now = some (some m) ∧
      s' = { s with limits := m, stage := Function.update s.stage i .updated }) ∨
    (∃ i order states, a = .snapshot i order ∧ s.stage i = .updated ∧
      s.limits.getLimitStates order = some states ∧
      s' = { s with stage := Function.update s.stage i (.snapped (s.taken + 1) states),
                    taken := s.taken + 1 }) ∨
    ∃ i n states, a = .write i ∧ s.stage i = .snapped n states ∧
      s' = { s with files := saveLimitStates states,
                    stage := Function.update s.stage i .idle, written := n } := by
  cases a with
  | update i now call =>
      rcases hi : s.stage i with _ | _ | ⟨n, states⟩ <;> simp only [step, hi] at h
      · obtain ⟨r, hr, hs⟩ := Option.map_eq_some_iff.mp h
        rcases r with _ | m
        · exact Or.inl (Prod.ext_iff.mp hs).1.symm
        · exact Or.inr (Or.inl ⟨i, now, call, m, rfl, hi, hr, (Prod.ext_iff.mp hs).1.symm⟩)
      · cases h
      · cases h
  | snapshot i order =>
      rcases hi : s.stage i with _ | _ | ⟨n, states⟩ <;> simp only [step, hi] at h
      · cases h
      · obtain ⟨states, hstates, hs⟩ := Option.map_eq_some_iff.mp h
        exact Or.inr (Or.inr (Or.inl
          ⟨i, order, states, rfl, hi, hstates, (Prod.ext_iff.mp hs).1.symm⟩))
      · cases h
  | write i =>
      rcases hi : s.stage i with _ | _ | ⟨n, states⟩ <;> simp only [step, hi] at h
      · cases h
      · cases h
      · rw [Option.some.injEq] at h
        exact Or.inr (Or.inr (Or.inr ⟨i, n, states, rfl, hi, (Prod.ext_iff.mp h).1.symm⟩))

/-- The other calls stay where they are. -/
theorem stage_of_other {s s' : SaveState} {a : SaveStep} {o : Unit} {i : ℕ}
    (h : s.step a = some (s', o)) (hi : a.caller ≠ i) : s'.stage i = s.stage i := by
  rcases step_cases h with rfl | ⟨j, now, call, m, rfl, -, -, rfl⟩ |
    ⟨j, order, states, rfl, -, -, rfl⟩ | ⟨j, n, states, rfl, -, rfl⟩
  · rfl
  · exact Function.update_of_ne (Ne.symm hi) _ _
  · exact Function.update_of_ne (Ne.symm hi) _ _
  · exact Function.update_of_ne (Ne.symm hi) _ _

/-- A thread that calls nothing is idle throughout. -/
theorem idle_of_run {s t : SaveState} {steps : List SaveStep} {obs : List Unit} {i : ℕ}
    (hs : s.stage i = .idle) (hi : ∀ a ∈ steps, a.caller ≠ i)
    (hrun : run step s steps = some (t, obs)) : t.stage i = .idle :=
  run_invariant (I := fun s => s.stage i = .idle) (P := fun _ a => a.caller ≠ i)
    (fun _ _ _ _ hidle hne h => (stage_of_other h hne).trans hidle) hs
    (along_of_mem (fun a ha _ => hi a ha) s) hrun

/-! ## Writes in the order of the snapshots -/

/-- What holds along with the newest snapshot, `last`. -/
structure SaveInvAt (s : SaveState) (last : LimitStates) : Prop where
  /-- Unless a call is about to take another, the newest snapshot is of the present limits. -/
  fresh : (∀ i, s.stage i ≠ .updated) → ∃ order, s.limits.getLimitStates order = some last
  /-- A snapshot that waits to be written is an older one, or the newest. -/
  waiting : ∀ i n states, s.stage i = .snapped n states →
    n ≤ s.taken ∧ (n = s.taken → states = last)
  /-- The snapshot in the file is an older one, or the newest. -/
  file : s.written ≤ s.taken ∧ (s.written = s.taken → s.files.v1 = .decoded last)
  /-- The newest snapshot is in the file, or waits to be written. -/
  newest : s.written = s.taken ∨ ∃ i states, s.stage i = .snapped s.taken states

/-- The newest snapshot is never lost. -/
def SaveInv (s : SaveState) : Prop := ∃ last, s.SaveInvAt last

/-- With the file up to date and no call under way, the snapshot in the file is the newest. -/
theorem saveInv_start {limits : LimitTable} {files : StateFiles}
    (h : (start limits files).FileCurrent) : (start limits files).SaveInv := by
  obtain ⟨order, states, hstates, hfile⟩ := h
  refine ⟨states, fun _ => ⟨order, hstates⟩, ?_, ⟨le_rfl, fun _ => hfile⟩, Or.inl rfl⟩
  intro i n st hi
  cases hi

/-- Each step keeps the newest snapshot, where none is written over a newer one. -/
theorem saveInv_step {s s' : SaveState} {a : SaveStep} {o : Unit} (hinv : s.SaveInv)
    (horder : s.InOrder a) (h : s.step a = some (s', o)) : s'.SaveInv := by
  obtain ⟨last, hfresh, hwait, hfile, hnewest⟩ := hinv
  rcases step_cases h with rfl | ⟨i, now, call, m, -, hi, -, rfl⟩ |
    ⟨i, order, states, -, hi, hstates, rfl⟩ | ⟨i, n, states, rfl, hi, rfl⟩
  · exact ⟨last, hfresh, hwait, hfile, hnewest⟩
  · -- an update: the call is now about to take a snapshot
    refine ⟨last, fun hall => absurd (Function.update_self i _ _) (hall i), ?_, hfile, ?_⟩
    · intro j n st hj
      dsimp only at hj ⊢
      by_cases hji : j = i
      · subst hji
        rw [Function.update_self] at hj
        cases hj
      · rw [Function.update_of_ne hji] at hj
        exact hwait j n st hj
    · refine hnewest.imp_right fun ⟨j, st, hj⟩ => ⟨j, st, ?_⟩
      have hji : j ≠ i := fun hji => by
        rw [hji, hi] at hj
        cases hj
      exact (Function.update_of_ne hji _ _).trans hj
  · -- a snapshot: it is the newest from now on
    refine ⟨states, fun _ => ⟨order, hstates⟩, ?_, ⟨?_, ?_⟩, Or.inr ⟨i, states, ?_⟩⟩
    · intro j n st hj
      dsimp only at hj ⊢
      by_cases hji : j = i
      · subst hji
        rw [Function.update_self] at hj
        cases hj
        exact ⟨le_rfl, fun _ => rfl⟩
      · rw [Function.update_of_ne hji] at hj
        have hn := (hwait j n st hj).1
        exact ⟨by omega, fun hn' => by omega⟩
    · exact Nat.le_succ_of_le hfile.1
    · intro hw
      have hle := hfile.1
      dsimp only at hw
      omega
    · exact Function.update_self i _ _
  · -- a write: the file gets newer, and if it is not the newest, another call holds that
    have hlt := horder i n states rfl hi
    obtain ⟨hle, hlast⟩ := hwait i n states hi
    refine ⟨last, ?_, ?_, ⟨hle, ?_⟩, ?_⟩
    · intro hall
      refine hfresh ?_
      intro j hj
      by_cases hji : j = i
      · rw [hji, hi] at hj
        cases hj
      · exact hall j ((Function.update_of_ne hji _ _).trans hj)
    · intro j n' st hj
      dsimp only at hj ⊢
      by_cases hji : j = i
      · subst hji
        rw [Function.update_self] at hj
        cases hj
      · rw [Function.update_of_ne hji] at hj
        exact hwait j n' st hj
    · intro hn
      rw [hlast hn]
      rfl
    · by_cases hn : n = s.taken
      · exact Or.inl hn
      · right
        rcases hnewest with hw | ⟨j, st, hj⟩
        · omega
        · have hji : j ≠ i := fun hji => by
            rw [hji, hi] at hj
            cases hj
            exact hn rfl
          exact ⟨j, st, (Function.update_of_ne hji _ _).trans hj⟩

/-- **The file is up to date whenever no call is under way**, in every run that starts so and
writes no snapshot over a newer one. -/
theorem file_current_of_inOrder {limits : LimitTable} {files : StateFiles}
    (hstart : (start limits files).FileCurrent) {steps : List SaveStep}
    (horder : Along step InOrder (start limits files) steps) {t : SaveState} {obs : List Unit}
    (hrun : run step (start limits files) steps = some (t, obs)) (hq : t.Quiescent) :
    t.FileCurrent := by
  obtain ⟨last, hfresh, -, hfile, hnewest⟩ :=
    run_invariant (fun _ _ _ _ hinv horder h => saveInv_step hinv horder h)
      (saveInv_start hstart) horder hrun
  obtain ⟨order, hlast⟩ := hfresh fun i hi => by
    rw [hq i] at hi
    cases hi
  have hw : t.written = t.taken := by
    rcases hnewest with hw | ⟨i, st, hi⟩
    · exact hw
    · rw [hq i] at hi
      cases hi
  exact ⟨order, last, hlast, hfile.2 hw⟩

/-- One user, with the limits of a new user. -/
def oneUser (ul : UserLimits) : LimitTable := (∅ : LimitTable).insert (.Local, "uos") ul

/-- A user with two tries. -/
def twoTriesUser : LimitTable :=
  oneUser ((∅ : UserLimits).insert .password (some (.ofConfig ⟨.password, 60, 2, false, []⟩)))

/-- Two sessions report a failure each: both calls have changed the table and taken their snapshots
before either writes, and they write in the order of the snapshots. -/
def overlappingFails : List SaveStep :=
  [.update 0 0 (.fail (.Local, "uos") .password), .snapshot 0 .listed,
    .update 1 1 (.fail (.Local, "uos") .password), .snapshot 1 .listed, .write 0, .write 1]

/-- The file has both failures. -/
theorem file_current_of_inOrder_overlap :
    ∃ states t obs, twoTriesUser.getLimitStates .listed = some states ∧
      run step (start twoTriesUser (saveLimitStates states)) overlappingFails = some (t, obs) ∧
      (t.limits.limit (.Local, "uos") .password).map Limit.numFailures = some 2 ∧
      t.Quiescent ∧ t.FileCurrent := by
  obtain ⟨states, hstates⟩ : ∃ states, twoTriesUser.getLimitStates .listed = some states :=
    ⟨_, rfl⟩
  obtain ⟨t, obs, hrun, hfails, h0, h1⟩ : ∃ t obs,
      run step (start twoTriesUser (saveLimitStates states)) overlappingFails = some (t, obs) ∧
        (t.limits.limit (.Local, "uos") .password).map Limit.numFailures = some 2 ∧
        t.stage 0 = .idle ∧ t.stage 1 = .idle :=
    ⟨_, _, rfl, rfl, rfl, rfl⟩
  have hq : t.Quiescent := by
    intro i
    by_cases hi : ∀ a ∈ overlappingFails, a.caller ≠ i
    · exact idle_of_run rfl hi hrun
    · have hcallers : i = 0 ∨ i = 1 := by
        simp only [overlappingFails, List.forall_mem_cons, SaveStep.caller] at hi
        by_contra hne
        exact hi ⟨by omega, by omega, by omega, by omega, by omega, by omega,
          fun a ha => absurd ha List.not_mem_nil⟩
      rcases hcallers with rfl | rfl
      · exact h0
      · exact h1
  refine ⟨states, t, obs, hstates, hrun, hfails, hq, ?_⟩
  have hstart : (start twoTriesUser (saveLimitStates states)).FileCurrent :=
    ⟨.listed, states, hstates, rfl⟩
  refine file_current_of_inOrder hstart ?_ hrun hq
  have hother : ∀ (s : SaveState) a, (∀ i, a ≠ .write i) → s.InOrder a :=
    fun s a ha i n states hw => absurd hw (ha i)
  refine (along_cons_of_eq rfl).mpr ⟨hother _ _ (by simp), ?_⟩
  refine (along_cons_of_eq rfl).mpr ⟨hother _ _ (by simp), ?_⟩
  refine (along_cons_of_eq rfl).mpr ⟨hother _ _ (by simp), ?_⟩
  refine (along_cons_of_eq rfl).mpr ⟨hother _ _ (by simp), ?_⟩
  refine (along_cons_of_eq rfl).mpr ⟨?_, (along_cons_of_eq rfl).mpr ⟨?_, trivial⟩⟩
  · rintro i n states ⟨⟩ ⟨⟩
    exact Nat.one_pos
  · rintro i n states ⟨⟩ ⟨⟩
    exact Nat.one_lt_two

/-! ## Writes in another order -/

/-- The updates leave the configuration alone. -/
theorem update_fromConfig {config : List (Option LimitConfig)} {base : UserLimits}
    (hbase : newUserLimits config = some base) {m m' : LimitTable} (hm : m.FromConfig base)
    {now : ℤ} {call : UpdateCall} (h : call.update m now = some (some m')) :
    m'.FromConfig base := by
  cases call with
  | fail k t =>
      have hs : m.step config (now, .fail k t) = some (m', none) := by
        have hf : m.fail k t now = some m' := Option.some.inj h
        rw [LimitTable.step, hf]
        rfl
      exact step_fromConfig hbase hm hs
  | success k t =>
      have hs : m.step config (now, .success k t) = some (m', none) := by
        have hf : m.success k t = some m' := Option.some.inj h
        rw [LimitTable.step, hf]
        rfl
      exact step_fromConfig hbase hm hs
  | resetLimits k =>
      obtain ⟨m₁, h₁, hm₁⟩ := Option.map_eq_some_iff.mp h
      cases hm₁
      have hs : m.step config (now, .resetLimits k) = some (m', none) := by
        rw [LimitTable.step, h₁]
        rfl
      exact step_fromConfig hbase hm hs

/-- A file that is up to date has the failures of every limit of the table. -/
theorem FileCurrent.mem_file {s : SaveState} (h : s.FileCurrent) (hwf : s.limits.WellFormed)
    {states : LimitStates} (hfile : s.files.v1 = .decoded states) {k : UserKey} {t : AuthType}
    {l : Limit} (hl : s.limits.limit k t = some l) :
    ∃ list, states.lookup k = some list ∧ l.state ∈ list := by
  obtain ⟨order, states', hstates, hfile'⟩ := h
  rw [hfile] at hfile'
  cases hfile'
  obtain ⟨ul, hul, hlt⟩ := LimitTable.limit_eq_some_iff.mp hl
  have hranges := order.limits_ranges k ul
  refine ⟨statesOf (order.limits k ul), ?_, ?_⟩
  · rw [lookup_getLimitStates hwf hstates, hul]
    rfl
  · obtain ⟨l', hl', htype, -⟩ := (hwf k ul hul).keyed t _ hlt
    cases hl'
    refine ((hwf k ul hul).mem_statesOf hranges).mpr ⟨l, ?_, rfl⟩
    rw [show l.state.type = t from htype]
    exact hlt

/-- A failure is counted in the entry of its type. -/
theorem limit_of_fail {m m' : LimitTable} {k : UserKey} {t : AuthType} {l : Limit} {now : ℤ}
    (hl : m.limit k t = some l) (h : m.fail k t now = some m') :
    m'.limit k t = some (l.fail now) := by
  rw [LimitTable.fail, hl] at h
  cases h
  obtain ⟨ul, hul, -⟩ := LimitTable.limit_eq_some_iff.mp hl
  refine LimitTable.limit_eq_some_iff.mpr ⟨ul.insert t (some (l.fail now)), ?_, ?_⟩
  · rw [LimitTable.lookup_setLimit, if_pos rfl, hul]
    rfl
  · exact AList.lookup_insert ul

/-- Two sessions report a failure each; the first to take its snapshot is the last to write it. -/
def staleWrite (k : UserKey) (t : AuthType) : List SaveStep :=
  [.update 0 0 (.fail k t), .snapshot 0 .listed, .update 1 1 (.fail k t), .snapshot 1 .listed,
    .write 1, .write 0]

section stale

variable {m m₁ m₂ : LimitTable} {k : UserKey} {t : AuthType} {states₁ states₂ : LimitStates}

/-- Where the steps of the two sessions lead. -/
theorem run_staleWrite (files : StateFiles) (h₁ : m.fail k t 0 = some m₁)
    (hs₁ : m₁.getLimitStates .listed = some states₁) (h₂ : m₁.fail k t 1 = some m₂)
    (hs₂ : m₂.getLimitStates .listed = some states₂) :
    run step (start m files) (staleWrite k t) =
      some (⟨m₂, saveLimitStates states₁, fun _ => .idle, 2, 1⟩, [(), (), (), (), (), ()]) := by
  simp only [staleWrite, run, step, start, UpdateCall.update, h₁, hs₁, h₂, hs₂,
    Function.update_self, Function.update_of_ne, ne_eq, zero_ne_one, one_ne_zero, not_false_eq_true,
    Option.map_some, Option.bind_some, Option.some.injEq, Prod.mk.injEq, SaveState.mk.injEq, true_and,
    and_true]
  -- both calls are over, and no other one began
  funext i
  by_cases h0 : i = 0
  · rw [h0, Function.update_self]
  · by_cases h1 : i = 1
    · rw [h1, Function.update_of_ne (by decide), Function.update_self]
    · simp only [Function.update_of_ne h0, Function.update_of_ne h1]

/-- Where the second failure shows in the state of the limit, the file is out of date. -/
theorem not_fileCurrent_of_stale {l : Limit} (hl : m.limit k t = some l)
    (hwf₁ : m₁.WellFormed) (hwf₂ : m₂.WellFormed) (h₁ : m.fail k t 0 = some m₁)
    (hs₁ : m₁.getLimitStates .listed = some states₁) (h₂ : m₁.fail k t 1 = some m₂)
    (hne : ((l.fail 0).fail 1).state ≠ (l.fail 0).state) :
    ¬ (⟨m₂, saveLimitStates states₁, fun _ => .idle, 2, 1⟩ : SaveState).FileCurrent := by
  intro hcur
  have hl₁ := limit_of_fail hl h₁
  have hl₂ := limit_of_fail hl₁ h₂
  obtain ⟨list, hlist, hmem⟩ := hcur.mem_file hwf₂ rfl hl₂
  -- the file holds the states of the table after the first failure
  obtain ⟨ul, hul, hlt⟩ := LimitTable.limit_eq_some_iff.mp hl₁
  rw [lookup_getLimitStates hwf₁ hs₁, hul, Option.map_some, Option.some.injEq] at hlist
  subst hlist
  obtain ⟨l', hl', hstate⟩ :=
    ((hwf₁ k ul hul).mem_statesOf (StatesOrder.listed.limits_ranges k ul)).mp hmem
  have htype : ((l.fail 0).fail 1).state.type = t := by
    obtain ⟨l'', hl'', htype, -⟩ := (hwf₁ k ul hul).keyed t _ hlt
    cases hl''
    exact (Limit.fail_sameConfig (l.fail 0) 1).1.trans htype
  rw [htype, hlt, Option.some.injEq, Option.some.injEq] at hl'
  rw [← hl'] at hstate
  exact hne hstate

end stale

/-- **A stale snapshot may be written last**: two failures were counted, no call is under way, and
the file knows of one. -/
theorem stale_snapshot_written :
    ∃ limits files t obs, (start limits files).FileCurrent ∧
      run step (start limits files) (staleWrite (.Local, "uos") .password) = some (t, obs) ∧
      t.Quiescent ∧ ¬ t.FileCurrent := by
  obtain ⟨base, hbase⟩ : ∃ base, newUserLimits twoTries = some base :=
    Option.isSome_iff_exists.mp (by decide)
  have hone : (oneUser base).FromConfig base := by
    intro k ul hul
    by_cases hk : k = (.Local, "uos")
    · rw [hk, oneUser, AList.lookup_insert, Option.some.injEq] at hul
      exact hul ▸ .refl .refl base
    · rw [oneUser, AList.lookup_insert_ne hk, AList.lookup_empty] at hul
      cases hul
  have hbwf := newUserLimits_wellFormed hbase
  have hwf : ∀ m : LimitTable, m.FromConfig base → m.WellFormed :=
    fun m hm k ul hul => hbwf.of_rel (hm k ul hul)
  obtain ⟨states₀, hs₀⟩ := Option.isSome_iff_exists.mp
    (getLimitStates_isSome (hwf _ hone) .listed)
  have hl : (oneUser base).limit (.Local, "uos") .password =
      some (.ofConfig ⟨.password, 0, 2, true, [60, 300]⟩) := by
    have hlt : base.lookup .password =
        some (some (.ofConfig ⟨.password, 0, 2, true, [60, 300]⟩)) := by
      have hmap : (newUserLimits twoTries).map (fun ul => ul.lookup .password) =
          some (some (some (.ofConfig ⟨.password, 0, 2, true, [60, 300]⟩))) := by decide
      rw [hbase] at hmap
      exact Option.some.inj hmap
    exact LimitTable.limit_eq_some_iff.mpr ⟨base, AList.lookup_insert _, hlt⟩
  obtain ⟨m₁, h₁⟩ : ∃ m₁, (oneUser base).fail (.Local, "uos") .password 0 = some m₁ :=
    ⟨_, by rw [LimitTable.fail, hl]; rfl⟩
  have hm₁ := update_fromConfig hbase hone
    (show UpdateCall.update _ 0 (.fail (.Local, "uos") .password) = _ from congrArg some h₁)
  obtain ⟨m₂, h₂⟩ : ∃ m₂, m₁.fail (.Local, "uos") .password 1 = some m₂ :=
    ⟨_, by rw [LimitTable.fail, limit_of_fail hl h₁]; rfl⟩
  have hm₂ := update_fromConfig hbase hm₁
    (show UpdateCall.update _ 1 (.fail (.Local, "uos") .password) = _ from congrArg some h₂)
  obtain ⟨states₁, hs₁⟩ := Option.isSome_iff_exists.mp
    (getLimitStates_isSome (hwf _ hm₁) .listed)
  obtain ⟨states₂, hs₂⟩ := Option.isSome_iff_exists.mp
    (getLimitStates_isSome (hwf _ hm₂) .listed)
  exact ⟨oneUser base, saveLimitStates states₀, _, _, ⟨.listed, states₀, hs₀, rfl⟩,
    run_staleWrite _ h₁ hs₁ h₂ hs₂, fun _ => rfl,
    not_fileCurrent_of_stale hl (hwf _ hm₁) (hwf _ hm₂) h₁ hs₁ h₂ (by decide)⟩

end SaveState

end LingmoAuthenticate.Limits
