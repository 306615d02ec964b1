import Mathlib.Algebra.GroupWithZero.Nat
import Mathlib.Data.Option.Basic
import Mathlib.Data.List.Basic
import Mathlib.Tactic.Lemma

/-!
# Machines: runs, invariants, conditions along a run, related runs

A *machine* over states `σ`, actions `α` and observations `β` is its step function
`step : σ → α → Option (σ × β)`; `none` says that the action is not enabled (or that it ends the
program, where a model reads it so). Nothing here depends on what is being modelled.

* `run step s as` executes a list of actions and collects the observations; `run_append` splits it.
* `observed_eq_some`, `guarded_eq_some`: what a step that shows a part of its state comes to.
* `Along step P s as`: the condition `P` holds before every action that the run from `s` takes.
* `run_invariant`: what every step that meets `P` preserves, every run that meets `P` along the
  way preserves; `run_observes` bounds the observations as well. With `P := fun _ _ => True` this
  is the plain invariant rule (`run_invariant_of_step`).
* `Along.of_invariant` is the invariant rule for what the actions find.
* `run_isSome`: a run that is never stuck.
* `run_potential`: what the steps cost is paid out of a potential.
* `along_iff`: where two conditions agree on the states of an invariant, they agree along runs.
* `observes_iff_along`, `reached_iff_along`: where a step keeps an invariant exactly if it meets a
  condition, a run stays within the invariant exactly if the condition holds along it.
* `stretches_iff_along`: what holds over every stretch of a run.
* `run_history`: the invariant rule for what holds of a state and all that was observed before it.
* `Simulates R step₁ step₂`: related states take the same actions with the same observations to
  related states; `Simulates.run` carries it to whole runs.
* `TakesApart R P step₁ step₂`: a step of the second machine is a run of the first, which shows the
  same; `TakesApart.run` carries it to whole runs.
* `run_project`: a machine seen through a part of its state, by the actions that concern the part.
-/

namespace LingmoAuthenticate.Lib

variable {σ τ α β : Type*}

/-! ## Runs -/

/-- Execute a list of actions from `s`, collecting the observations in order. -/
def run (step : σ → α → Option (σ × β)) : σ → List α → Option (σ × List β)
  | s, [] => some (s, [])
  | s, a :: as =>
      (step s a).bind fun r => (run step r.1 as).map fun q => (q.1, r.2 :: q.2)

@[simp] theorem run_nil (step : σ → α → Option (σ × β)) (s : σ) :
    run step s [] = some (s, []) := rfl

/-- A non-empty run is a step followed by a run. -/
theorem run_cons_eq_some {step : σ → α → Option (σ × β)} {s t : σ} {a : α} {as : List α}
    {bs : List β} :
    run step s (a :: as) = some (t, bs) ↔
      ∃ s' b bs', step s a = some (s', b) ∧ run step s' as = some (t, bs') ∧ bs = b :: bs' := by
  simp only [run, Option.bind_eq_some_iff, Option.map_eq_some_iff, Prod.exists, Prod.mk.injEq]
  constructor
  · rintro ⟨s', b, hs, t', bs', hr, rfl, rfl⟩
    exact ⟨s', b, bs', hs, hr, rfl⟩
  · rintro ⟨s', b, bs', hs, hr, rfl⟩
    exact ⟨s', b, hs, t, bs', hr, rfl, rfl⟩

/-- A step that shows a part of the state that it comes to. -/
theorem observed_eq_some {o : Option σ} {obs : σ → β} {s : σ} {b : β} :
    (o.map fun t => (t, obs t)) = some (s, b) ↔ o = some s ∧ b = obs s := by
  rw [Option.map_eq_some_iff]
  constructor
  · rintro ⟨t, ht, heq⟩
    cases heq
    exact ⟨ht, rfl⟩
  · rintro ⟨ht, rfl⟩
    exact ⟨s, ht, rfl⟩

/-- The same, of a machine that takes no step where it is stuck. -/
theorem guarded_eq_some {stuck : Bool} {o : Option σ} {obs : σ → β} {s : σ} {b : β} :
    (if stuck then none else o.map fun t => (t, obs t)) = some (s, b) ↔
      stuck = false ∧ o = some s ∧ b = obs s := by
  rw [Option.ite_none_left_eq_some, observed_eq_some, Bool.not_eq_true]

/-- A step is a run. -/
theorem run_of_step {step : σ → α → Option (σ × β)} {s s' : σ} {a : α} {b : β}
    (h : step s a = some (s', b)) : run step s [a] = some (s', [b]) :=
  run_cons_eq_some.mpr ⟨s', b, [], h, rfl, rfl⟩

/-- A run over `as ++ cs` is a run over `as` followed by a run over `cs`. -/
theorem run_append {step : σ → α → Option (σ × β)} {s t : σ} {as cs : List α} {bs : List β} :
    run step s (as ++ cs) = some (t, bs) ↔
      ∃ u bs₁ bs₂, run step s as = some (u, bs₁) ∧ run step u cs = some (t, bs₂) ∧
        bs = bs₁ ++ bs₂ := by
  induction as generalizing s bs with
  | nil =>
      constructor
      · intro h
        exact ⟨s, [], bs, rfl, h, rfl⟩
      · rintro ⟨u, bs₁, bs₂, h₁, h₂, rfl⟩
        simp only [run_nil, Option.some.injEq, Prod.mk.injEq] at h₁
        obtain ⟨rfl, rfl⟩ := h₁
        exact h₂
  | cons a as ih =>
      rw [List.cons_append, run_cons_eq_some]
      constructor
      · rintro ⟨s', b, bs', hs, hr, rfl⟩
        obtain ⟨u, bs₁, bs₂, h₁, h₂, rfl⟩ := ih.mp hr
        exact ⟨u, b :: bs₁, bs₂, run_cons_eq_some.mpr ⟨s', b, bs₁, hs, h₁, rfl⟩, h₂, rfl⟩
      · rintro ⟨u, bs₁, bs₂, h₁, h₂, rfl⟩
        obtain ⟨s', b, bs', hs, hr, rfl⟩ := run_cons_eq_some.mp h₁
        exact ⟨s', b, bs' ++ bs₂, hs, ih.mpr ⟨u, bs', bs₂, hr, h₂, rfl⟩, rfl⟩

/-! ## Conditions along a run, and the invariant rule -/

/-- `P` holds before every action that the run from `s` takes. -/
def Along (step : σ → α → Option (σ × β)) (P : σ → α → Prop) : σ → List α → Prop
  | _, [] => True
  | s, a :: as => P s a ∧ ∀ s' b, step s a = some (s', b) → Along step P s' as

@[simp] theorem along_nil (step : σ → α → Option (σ × β)) (P : σ → α → Prop) (s : σ) :
    Along step P s [] := trivial

theorem along_cons {step : σ → α → Option (σ × β)} {P : σ → α → Prop} {s : σ} {a : α}
    {as : List α} :
    Along step P s (a :: as) ↔ P s a ∧ ∀ s' b, step s a = some (s', b) → Along step P s' as :=
  Iff.rfl

/-- Where the first step is known, the condition holds before it and along the rest. -/
theorem along_cons_of_eq {step : σ → α → Option (σ × β)} {P : σ → α → Prop} {s s' : σ} {a : α}
    {b : β} {as : List α} (hs : step s a = some (s', b)) :
    Along step P s (a :: as) ↔ P s a ∧ Along step P s' as := by
  refine and_congr_right fun _ => ⟨fun h => h s' b hs, ?_⟩
  intro h t c ht
  rw [hs, Option.some.injEq, Prod.mk.injEq] at ht
  exact ht.1 ▸ h

/-- A weaker condition holds along the same run. -/
theorem Along.imp {step : σ → α → Option (σ × β)} {P Q : σ → α → Prop}
    (hPQ : ∀ s a, P s a → Q s a) {s : σ} {as : List α} (h : Along step P s as) :
    Along step Q s as := by
  induction as generalizing s with
  | nil => trivial
  | cons a as ih => exact ⟨hPQ s a h.1, fun s' b hs => ih (h.2 s' b hs)⟩

/-- Two conditions that hold along a run. -/
theorem Along.and {step : σ → α → Option (σ × β)} {P Q : σ → α → Prop} {s : σ} {as : List α}
    (h : Along step P s as) (h' : Along step Q s as) :
    Along step (fun s a => P s a ∧ Q s a) s as := by
  induction as generalizing s with
  | nil => trivial
  | cons a as ih => exact ⟨⟨h.1, h'.1⟩, fun s' b hs => ih (h.2 s' b hs) (h'.2 s' b hs)⟩

/-- **The invariant rule, with observations**: where every step that meets `P` keeps `I` and is
observed within `Q`, a run that meets `P` along the way keeps `I` and is observed within `Q`
throughout. -/
theorem run_observes {step : σ → α → Option (σ × β)} {P : σ → α → Prop} {I : σ → Prop}
    {Q : β → Prop}
    (hstep : ∀ s a s' b, I s → P s a → step s a = some (s', b) → I s' ∧ Q b)
    {s t : σ} {as : List α} {bs : List β} (hs : I s) (hP : Along step P s as)
    (hr : run step s as = some (t, bs)) : I t ∧ ∀ b ∈ bs, Q b := by
  induction as generalizing s bs with
  | nil =>
      simp only [run_nil, Option.some.injEq, Prod.mk.injEq] at hr
      obtain ⟨rfl, rfl⟩ := hr
      exact ⟨hs, by simp⟩
  | cons a as ih =>
      obtain ⟨s', b, bs', hsa, hr', rfl⟩ := run_cons_eq_some.mp hr
      obtain ⟨hs', hb⟩ := hstep s a s' b hs hP.1 hsa
      obtain ⟨ht, hbs⟩ := ih hs' (hP.2 s' b hsa) hr'
      refine ⟨ht, ?_⟩
      intro c hc
      rcases List.mem_cons.mp hc with rfl | hc
      · exact hb
      · exact hbs c hc

/-- **The invariant rule**: what every step that meets `P` preserves, every run that meets `P`
along the way preserves. -/
theorem run_invariant {step : σ → α → Option (σ × β)} {P : σ → α → Prop} {I : σ → Prop}
    (hstep : ∀ s a s' b, I s → P s a → step s a = some (s', b) → I s')
    {s t : σ} {as : List α} {bs : List β} (hs : I s) (hP : Along step P s as)
    (hr : run step s as = some (t, bs)) : I t :=
  (run_observes (Q := fun _ => True)
    (fun s a s' b h h' h'' => ⟨hstep s a s' b h h' h'', trivial⟩) hs hP hr).1

/-- **The invariant rule, for the actions**: where every step that meets `P` keeps `I`, and `Q`
follows from the two, a run that meets `P` along the way meets `Q` along the way. -/
theorem Along.of_invariant {step : σ → α → Option (σ × β)} {P Q : σ → α → Prop} {I : σ → Prop}
    (hstep : ∀ s a s' b, I s → P s a → step s a = some (s', b) → I s')
    (hQ : ∀ s a, I s → P s a → Q s a) {s : σ} {as : List α} (hs : I s)
    (hP : Along step P s as) : Along step Q s as := by
  induction as generalizing s with
  | nil => trivial
  | cons a as ih =>
      refine ⟨hQ s a hs hP.1, ?_⟩
      intro s' b hsa
      exact ih (hstep s a s' b hs hP.1 hsa) (hP.2 s' b hsa)

/-- What holds along a run holds before an action that the run reaches. -/
theorem Along.of_run {step : σ → α → Option (σ × β)} {P : σ → α → Prop} {s t : σ} {a : α}
    {as cs : List α} {bs : List β} (h : Along step P s (as ++ a :: cs))
    (hr : run step s as = some (t, bs)) : P t a := by
  induction as generalizing s bs with
  | nil =>
      cases hr
      exact h.1
  | cons b as ih =>
      obtain ⟨s', o, bs', hs, hr', -⟩ := run_cons_eq_some.mp hr
      exact ih (h.2 s' o hs) hr'

/-- What holds along a run holds along its beginning. -/
theorem Along.of_append {step : σ → α → Option (σ × β)} {P : σ → α → Prop} {s : σ}
    {as cs : List α} (h : Along step P s (as ++ cs)) : Along step P s as := by
  induction as generalizing s with
  | nil => trivial
  | cons a as ih => exact ⟨h.1, fun s' b hs => ih (h.2 s' b hs)⟩

/-- What holds along a run holds along its end. -/
theorem Along.of_append_right {step : σ → α → Option (σ × β)} {P : σ → α → Prop} {s t : σ}
    {as cs : List α} {bs : List β} (h : Along step P s (as ++ cs))
    (hr : run step s as = some (t, bs)) : Along step P t cs := by
  induction as generalizing s bs with
  | nil =>
      cases hr
      exact h
  | cons a as ih =>
      obtain ⟨s', b, bs', hs, hr', -⟩ := run_cons_eq_some.mp hr
      exact ih (h.2 s' b hs) hr'

/-- A condition that always holds, holds along every run. -/
theorem along_of_forall {step : σ → α → Option (σ × β)} {P : σ → α → Prop}
    (h : ∀ s a, P s a) (s : σ) (as : List α) : Along step P s as := by
  induction as generalizing s with
  | nil => trivial
  | cons a as ih => exact ⟨h s a, fun s' _ _ => ih s'⟩

/-- A condition on the actions alone. -/
theorem along_of_mem {step : σ → α → Option (σ × β)} {P : σ → α → Prop} {as : List α}
    (h : ∀ a ∈ as, ∀ s, P s a) (s : σ) : Along step P s as := by
  induction as generalizing s with
  | nil => trivial
  | cons a as ih =>
      obtain ⟨ha, has⟩ := List.forall_mem_cons.mp h
      exact ⟨ha s, fun s' _ _ => ih has s'⟩

/-- The invariant rule without a condition on the steps. -/
theorem run_invariant_of_step {step : σ → α → Option (σ × β)} {I : σ → Prop}
    (hstep : ∀ s a s' b, I s → step s a = some (s', b) → I s')
    {s t : σ} {as : List α} {bs : List β} (hs : I s)
    (hr : run step s as = some (t, bs)) : I t :=
  run_invariant (P := fun _ _ => True) (fun s a s' b h _ => hstep s a s' b h) hs
    (along_of_forall (fun _ _ => trivial) s as) hr

/-- **A run that is never stuck**: where every action that meets `P` is enabled in every state of
`I`, and stays there. -/
theorem run_isSome {step : σ → α → Option (σ × β)} {P : α → Prop} {I : σ → Prop}
    (hstep : ∀ s a, I s → P a → ∃ s' b, step s a = some (s', b) ∧ I s') {s : σ} {as : List α}
    (hs : I s) (has : ∀ a ∈ as, P a) : (run step s as).isSome := by
  induction as generalizing s with
  | nil => rfl
  | cons a as ih =>
      obtain ⟨ha, has⟩ := List.forall_mem_cons.mp has
      obtain ⟨s', b, hsa, hs'⟩ := hstep s a hs ha
      obtain ⟨⟨t, bs⟩, hr⟩ := Option.isSome_iff_exists.mp (ih hs' has)
      rw [run_cons_eq_some.mpr ⟨s', b, bs, hsa, hr, rfl⟩]
      rfl

/-- **The invariant rule, with the past**: what every step keeps of a state and of all that has been
observed so far. -/
theorem run_history {step : σ → α → Option (σ × β)} {P : σ → α → Prop} {I : List β → σ → Prop}
    (hstep : ∀ past s a s' b, I past s → P s a → step s a = some (s', b) → I (past ++ [b]) s')
    {past : List β} {s t : σ} {as : List α} {bs : List β} (hs : I past s)
    (hP : Along step P s as) (hr : run step s as = some (t, bs)) : I (past ++ bs) t := by
  induction as generalizing past s bs with
  | nil =>
      simp only [run_nil, Option.some.injEq, Prod.mk.injEq] at hr
      obtain ⟨rfl, rfl⟩ := hr
      rw [List.append_nil]
      exact hs
  | cons a as ih =>
      obtain ⟨s', b, bs', hsa, hr', rfl⟩ := run_cons_eq_some.mp hr
      have htail : I (past ++ [b] ++ bs') t :=
        ih (hstep past s a s' b hs hP.1 hsa) (hP.2 s' b hsa) hr'
      rw [List.append_assoc, List.singleton_append] at htail
      exact htail

/-- **The potential rule**: where every step that meets `P` pays its cost out of the potential `φ`,
a run that meets `P` along the way costs no more than the potential it uses up. -/
theorem run_potential {step : σ → α → Option (σ × β)} {P : σ → α → Prop} {φ : σ → ℕ}
    {cost : β → ℕ}
    (hstep : ∀ s a s' b, P s a → step s a = some (s', b) → cost b + φ s' ≤ φ s)
    {s t : σ} {as : List α} {bs : List β} (hP : Along step P s as)
    (hr : run step s as = some (t, bs)) : (bs.map cost).sum + φ t ≤ φ s := by
  induction as generalizing s bs with
  | nil =>
      simp only [run_nil, Option.some.injEq, Prod.mk.injEq] at hr
      obtain ⟨rfl, rfl⟩ := hr
      simp
  | cons a as ih =>
      obtain ⟨s', b, bs', hsa, hr', rfl⟩ := run_cons_eq_some.mp hr
      have hhead := hstep s a s' b hP.1 hsa
      have htail := ih (hP.2 s' b hsa) hr'
      rw [List.map_cons, List.sum_cons]
      omega

/-- Conditions that agree on the states of an invariant agree along runs. -/
theorem along_iff {step : σ → α → Option (σ × β)} {P Q : σ → α → Prop} {I : σ → Prop}
    (hstep : ∀ s a s' b, I s → step s a = some (s', b) → I s')
    (hPQ : ∀ s a, I s → (P s a ↔ Q s a)) {s : σ} (hs : I s) (as : List α) :
    Along step P s as ↔ Along step Q s as := by
  induction as generalizing s with
  | nil => exact Iff.rfl
  | cons a as ih =>
      rw [along_cons, along_cons, hPQ s a hs]
      refine and_congr_right ?_
      intro _
      exact forall_congr' fun s' => forall_congr' fun b => forall_congr' fun hsa =>
        ih (hstep s a s' b hs hsa)

/-- **What holds in every state of a run**: where a step keeps `I` and is observed within `Q`
exactly if it meets `P`, the run stays within `I` and `Q` exactly if `P` holds along it. `J` is what
every step keeps. -/
theorem observes_iff_along {step : σ → α → Option (σ × β)} {P : σ → α → Prop} {I J : σ → Prop}
    {Q : β → Prop} (hJ : ∀ s a s' b, J s → step s a = some (s', b) → J s')
    (hstep : ∀ s a s' b, J s → I s → step s a = some (s', b) → (I s' ∧ Q b ↔ P s a))
    (hstuck : ∀ s a, step s a = none → P s a) {s : σ} (hs : J s) (hs' : I s) (as : List α) :
    (∀ cs t bs, cs <+: as → run step s cs = some (t, bs) → I t ∧ ∀ b ∈ bs, Q b) ↔
      Along step P s as := by
  induction as generalizing s with
  | nil =>
      refine iff_of_true ?_ trivial
      intro cs t bs hcs hr
      obtain rfl := List.prefix_nil.mp hcs
      cases hr
      exact ⟨hs', by simp⟩
  | cons a as ih =>
      constructor
      · intro h
        have hnext : ∀ s' b, step s a = some (s', b) → I s' ∧ Q b := by
          intro s' b hsa
          obtain ⟨hI, hQ⟩ := h [a] s' [b] ((List.prefix_cons_inj a).mpr List.nil_prefix)
            (run_of_step hsa)
          exact ⟨hI, hQ b (List.mem_singleton_self b)⟩
        constructor
        · rcases hsa : step s a with _ | ⟨s', b⟩
          · exact hstuck s a hsa
          · exact (hstep s a s' b hs hs' hsa).mp (hnext s' b hsa)
        · intro s' b hsa
          refine (ih (hJ s a s' b hs hsa) (hnext s' b hsa).1).mp ?_
          intro cs t bs hcs hr
          obtain ⟨hI, hQ⟩ := h (a :: cs) t (b :: bs) ((List.prefix_cons_inj a).mpr hcs)
            (run_cons_eq_some.mpr ⟨s', b, bs, hsa, hr, rfl⟩)
          exact ⟨hI, fun c hc => hQ c (List.mem_cons_of_mem b hc)⟩
      · rintro ⟨ha, hrest⟩ cs t bs hcs hr
        rcases cs with _ | ⟨c, cs⟩
        · cases hr
          exact ⟨hs', by simp⟩
        · obtain ⟨rfl, htail⟩ := List.cons_prefix_cons.mp hcs
          obtain ⟨s', b, bs', hsa, hr', rfl⟩ := run_cons_eq_some.mp hr
          obtain ⟨hI, hQ⟩ := (hstep s c s' b hs hs' hsa).mpr ha
          obtain ⟨ht, hbs⟩ := (ih (hJ s c s' b hs hsa) hI).mpr (hrest s' b hsa) cs t bs' htail hr'
          exact ⟨ht, List.forall_mem_cons.mpr ⟨hQ, hbs⟩⟩

/-- The same without observations. -/
theorem reached_iff_along {step : σ → α → Option (σ × β)} {P : σ → α → Prop} {I J : σ → Prop}
    (hJ : ∀ s a s' b, J s → step s a = some (s', b) → J s')
    (hstep : ∀ s a s' b, J s → I s → step s a = some (s', b) → (I s' ↔ P s a))
    (hstuck : ∀ s a, step s a = none → P s a) {s : σ} (hs : J s) (hs' : I s) (as : List α) :
    (∀ cs t bs, cs <+: as → run step s cs = some (t, bs) → I t) ↔ Along step P s as := by
  rw [← observes_iff_along (Q := fun _ => True) hJ
    (fun s a s' b h h' hs => (and_iff_left trivial).trans (hstep s a s' b h h' hs)) hstuck hs hs']
  constructor
  · exact fun h cs t bs hcs hr => ⟨h cs t bs hcs hr, fun _ _ => trivial⟩
  · exact fun h cs t bs hcs hr => (h cs t bs hcs hr).1

/-- **What holds over every stretch of a run**: a relation between the state at which a stretch
begins, what is observed in it and the state at which it ends, that can be put together step by
step, holds over all stretches exactly where it holds over the steps. -/
theorem stretches_iff_along {step : σ → α → Option (σ × β)} {R : σ → List β → σ → Prop}
    (hnil : ∀ s, R s [] s) (hcons : ∀ s b t bs u, R s [b] t → R t bs u → R s (b :: bs) u)
    {s : σ} {as : List α} :
    (∀ before during u t bs cs, before ++ during <+: as → run step s before = some (u, bs) →
      run step u during = some (t, cs) → R u cs t) ↔
    Along step (fun s a => ∀ s' b, step s a = some (s', b) → R s [b] s') s as := by
  induction as generalizing s with
  | nil =>
      refine iff_of_true ?_ trivial
      intro before during u t bs cs hpre hr hr'
      obtain ⟨rfl, rfl⟩ := List.append_eq_nil_iff.mp (List.prefix_nil.mp hpre)
      cases hr
      cases hr'
      exact hnil s
  | cons a as ih =>
      constructor
      · intro h
        constructor
        · intro s' b hsa
          exact h [] [a] s s' [] [b] ((List.prefix_cons_inj a).mpr List.nil_prefix) rfl
            (run_of_step hsa)
        · intro s' b hsa
          refine ih.mp ?_
          intro before during u t bs cs hpre hr hr'
          exact h (a :: before) during u t (b :: bs) cs ((List.prefix_cons_inj a).mpr hpre)
            (run_cons_eq_some.mpr ⟨s', b, bs, hsa, hr, rfl⟩) hr'
      · rintro ⟨ha, hrest⟩ before during u t bs cs hpre hr hr'
        rcases before with _ | ⟨c, before⟩
        · cases hr
          rcases during with _ | ⟨c, during⟩
          · cases hr'
            exact hnil s
          · obtain ⟨rfl, hpre'⟩ := List.cons_prefix_cons.mp hpre
            obtain ⟨s', b, cs', hsa, hr'', rfl⟩ := run_cons_eq_some.mp hr'
            exact hcons s b s' cs' t (ha s' b hsa)
              (ih.mpr (hrest s' b hsa) [] during s' t [] cs' hpre' rfl hr'')
        · obtain ⟨rfl, hpre'⟩ := List.cons_prefix_cons.mp hpre
          obtain ⟨s', b, bs', hsa, hr'', rfl⟩ := run_cons_eq_some.mp hr
          exact ih.mpr (hrest s' b hsa) before during u t bs' cs hpre' hr'' hr'

/-! ## A part of the state -/

/-- What a run shows of the actions that `g` lets through. -/
def shown {γ δ : Type*} (g : α → Option γ) (o : γ → β → δ) (as : List α) (bs : List β) : List δ :=
  (as.zip bs).filterMap fun p => (g p.1).map fun c => o c p.2

/-- **A part of a machine runs on its own**: where an action that `g` drops leaves the part alone,
and the others are steps of the part, a run is a run of the part. -/
theorem run_project {γ δ : Type*} {step : σ → α → Option (σ × β)}
    {part : τ → γ → Option (τ × δ)} {I : σ → Prop} {f : σ → τ} {g : α → Option γ} {o : γ → β → δ}
    (hI : ∀ s a s' b, I s → step s a = some (s', b) → I s')
    (hquiet : ∀ s a s' b, I s → step s a = some (s', b) → g a = none → f s' = f s)
    (hpart : ∀ s a s' b c, I s → step s a = some (s', b) → g a = some c →
      part (f s) c = some (f s', o c b))
    {s t : σ} {as : List α} {bs : List β} (hs : I s) (hr : run step s as = some (t, bs)) :
    run part (f s) (as.filterMap g) = some (f t, shown g o as bs) := by
  induction as generalizing s bs with
  | nil =>
      cases hr
      rfl
  | cons a as ih =>
      obtain ⟨s', b, bs', hsa, hr', rfl⟩ := run_cons_eq_some.mp hr
      have htail := ih (hI s a s' b hs hsa) hr'
      rcases hg : g a with _ | c
      · rw [List.filterMap_cons_none hg, ← hquiet s a s' b hs hsa hg, htail]
        simp [shown, hg]
      · rw [List.filterMap_cons_some hg]
        refine run_cons_eq_some.mpr ⟨f s', o c b, _, hpart s a s' b c hs hsa hg, htail, ?_⟩
        simp [shown, hg]

/-! ## Related runs -/

/-- From related states, the two machines take the same actions, with equal observations and to
related states. -/
def Simulates (R : σ → τ → Prop) (step₁ : σ → α → Option (σ × β))
    (step₂ : τ → α → Option (τ × β)) : Prop :=
  ∀ s t a, R s t →
    Option.Rel (fun p q => R p.1 q.1 ∧ p.2 = q.2) (step₁ s a) (step₂ t a)

/-- Related steps make related runs, with the same observations. -/
theorem Simulates.run {R : σ → τ → Prop} {step₁ : σ → α → Option (σ × β)}
    {step₂ : τ → α → Option (τ × β)} (h : Simulates R step₁ step₂) {s : σ} {t : τ}
    (hR : R s t) (as : List α) :
    Option.Rel (fun p q => R p.1 q.1 ∧ p.2 = q.2) (run step₁ s as) (run step₂ t as) := by
  induction as generalizing s t with
  | nil => exact .some ⟨hR, rfl⟩
  | cons a as ih =>
      have ha := h s t a hR
      simp only [Lib.run]
      rcases hs : step₁ s a with _ | p <;> rcases ht : step₂ t a with _ | q <;>
        rw [hs, ht] at ha
      · exact .none
      · cases ha
      · cases ha
      · obtain ⟨hpq, hobs⟩ : R p.1 q.1 ∧ p.2 = q.2 := by cases ha; assumption
        have hrest := ih hpq
        simp only [Option.bind_some]
        rcases hp : Lib.run step₁ p.1 as with _ | p' <;>
          rcases hq : Lib.run step₂ q.1 as with _ | q' <;> rw [hp, hq] at hrest
        · exact .none
        · cases hrest
        · cases hrest
        · obtain ⟨hR', hobs'⟩ : R p'.1 q'.1 ∧ p'.2 = q'.2 := by cases hrest; assumption
          exact .some ⟨hR', congrArg₂ List.cons hobs hobs'⟩

/-! ## Steps that are runs of another machine -/

/-- Some run leads from one state to another, and shows `os` in all. -/
def Leads (step : σ → α → Option (σ × List β)) (s : σ) (os : List β) (t : σ) : Prop :=
  ∃ as bs, run step s as = some (t, bs) ∧ bs.flatten = os

theorem Leads.refl (step : σ → α → Option (σ × List β)) (s : σ) : Leads step s [] s :=
  ⟨[], [], rfl, rfl⟩

theorem Leads.trans {step : σ → α → Option (σ × List β)} {s t u : σ} {os os' : List β}
    (h : Leads step s os t) (h' : Leads step t os' u) : Leads step s (os ++ os') u := by
  obtain ⟨as, bs, hr, rfl⟩ := h
  obtain ⟨as', bs', hr', rfl⟩ := h'
  exact ⟨as ++ as', bs ++ bs', run_append.mpr ⟨t, bs, bs', hr, hr', rfl⟩, List.flatten_append⟩

/-- A run that shows nothing comes first. -/
theorem Leads.after {step : σ → α → Option (σ × List β)} {s t u : σ} {as : List α}
    {bs : List (List β)} {os : List β} (h : Leads step t os u) (hr : run step s as = some (t, bs))
    (hquiet : bs.flatten = []) : Leads step s os u :=
  Leads.trans ⟨as, bs, hr, hquiet⟩ h

/-- **The first machine takes apart the steps of the second**: from a state that stands for another,
a step that meets `P` is made by some run, which shows the same and leads to a state that stands for
the one after it. -/
def TakesApart {τ γ : Type*} (R : σ → τ → Prop) (P : τ → γ → Prop)
    (step₁ : σ → α → Option (σ × List β)) (step₂ : τ → γ → Option (τ × List β)) : Prop :=
  ∀ s t c t' os, R s t → P t c → step₂ t c = some (t', os) → ∃ s', Leads step₁ s os s' ∧ R s' t'

/-- Then every run of the second machine is made by a run of the first. -/
theorem TakesApart.run {τ γ : Type*} {R : σ → τ → Prop} {P : τ → γ → Prop}
    {step₁ : σ → α → Option (σ × List β)} {step₂ : τ → γ → Option (τ × List β)}
    (h : TakesApart R P step₁ step₂) {s : σ} {t t' : τ} {cs : List γ} {bs : List (List β)}
    (hR : R s t) (hP : Along step₂ P t cs) (hr : run step₂ t cs = some (t', bs)) :
    ∃ s', Leads step₁ s bs.flatten s' ∧ R s' t' := by
  induction cs generalizing s t bs with
  | nil =>
      cases hr
      exact ⟨s, .refl step₁ s, hR⟩
  | cons c cs ih =>
      obtain ⟨u, b, bs', hs, hr', rfl⟩ := run_cons_eq_some.mp hr
      obtain ⟨s', hlead, hR'⟩ := h s t c u b hR hP.1 hs
      obtain ⟨s'', hlead', hR''⟩ := ih hR' (hP.2 u b hs) hr'
      exact ⟨s'', hlead.trans hlead', hR''⟩

end LingmoAuthenticate.Lib
