import LingmoAuthenticate.Lib.Machine

/-!
# Machines that serve one numbered episode after another

A machine works on numbered episodes; each can be asked to end, comes to an end, stops, and has
results. What has happened to the episodes is kept in a history beside the state.

* `Episodes.InTime`: no result of an episode is given once it has ended.
* `Results.along_inTime`: so it is where no episode ends with a result under way, and no result of
  an ended episode arises.
* `Episodes.Reports`: an episode that stops without having been asked to end has had one outcome.
-/

namespace LingmoAuthenticate.Lib

/-- Which episodes were asked to end, the last first, which have ended, for which of them an outcome
was given, once for each outcome, and which were refused. -/
structure History where
  requested : List ℕ
  ended : List ℕ
  counted : List ℕ
  refused : List ℕ

namespace History

/-- Nothing has happened. -/
def empty : History := ⟨[], [], [], []⟩

end History

/-- A machine whose steps serve episodes and give things of type `β`. A step may ask an episode to
end, end one (the requests so far are known), let one stop by itself, and refuse one; `origin` says
which episode a thing given comes from, `isResult` whether it is a result, and `isOutcome` whether
it is the outcome of its episode. -/
structure Episodes (σ α β : Type*) where
  step : σ → α → Option (σ × List β)
  requests : σ → α → Option ℕ
  ends : σ → List ℕ → α → Option ℕ
  stops : σ → α → Option ℕ
  refuses : σ → α → Option ℕ
  origin : α → β → ℕ
  isResult : β → Bool
  isOutcome : α → β → Bool
  busy : σ → Prop

namespace Episodes

variable {σ α β : Type*} (m : Episodes σ α β)

/-- The episodes that a step gives outcomes of. -/
def outcomes (a : α) (given : List β) : List ℕ := (given.filter (m.isOutcome a)).map (m.origin a)

/-- What a step adds to the history. -/
def record (s : σ) (h : History) (a : α) (given : List β) : History where
  requested := (m.requests s a).toList ++ h.requested
  ended := (m.ends s h.requested a).toList ++ h.ended
  counted := m.outcomes a given ++ h.counted
  refused := (m.refuses s a).toList ++ h.refused

/-- The machine with its history. -/
def traced (x : σ × History) (a : α) : Option ((σ × History) × List β) :=
  (m.step x.1 a).map fun r => ((r.1, m.record x.1 x.2 a r.2), r.2)

variable {m}

theorem traced_eq_some {x x' : σ × History} {a : α} {given : List β} :
    m.traced x a = some (x', given) ↔
      m.step x.1 a = some (x'.1, given) ∧ x'.2 = m.record x.1 x.2 a given := by
  unfold traced
  rw [Option.map_eq_some_iff]
  constructor
  · rintro ⟨r, hr, heq⟩
    cases heq
    exact ⟨hr, rfl⟩
  · rintro ⟨hs, hh⟩
    exact ⟨_, hs, by rw [← hh]⟩

/-- Nothing given that counts is no outcome. -/
theorem outcomes_eq_nil {a : α} {given : List β} (h : ∀ g ∈ given, m.isOutcome a g = false) :
    m.outcomes a given = [] := by
  unfold outcomes
  rw [List.filter_eq_nil_iff.mpr fun g hg => by simp [h g hg], List.map_nil]

theorem mem_outcomes {a : α} {given : List β} {n : ℕ} :
    n ∈ m.outcomes a given ↔ ∃ g ∈ given, m.isOutcome a g = true ∧ m.origin a g = n := by
  simp only [outcomes, List.mem_map, List.mem_filter, and_assoc]

theorem outcomes_singleton {a : α} {g : β} (h : m.isOutcome a g = true) :
    m.outcomes a [g] = [m.origin a g] := by
  unfold outcomes
  rw [List.filter_cons_of_pos h, List.filter_nil, List.map_singleton]

variable (m)

/-- The step gives no result of an episode that has ended. -/
def InTime (x : σ × History) (a : α) : Prop :=
  ∀ x' given, m.traced x a = some (x', given) →
    ∀ g ∈ given, m.isResult g = true → m.origin a g ∉ x.2.ended

/-- An episode that stops in the step without having been asked to end has had one outcome, and the
machine is not busy. -/
def Reports (x : σ × History) (a : α) : Prop :=
  ∀ x' given, m.traced x a = some (x', given) →
    ∀ n, m.stops x.1 a = some n → n ∉ x'.2.requested → x'.2.counted.count n = 1 ∧ ¬ m.busy x'.1

variable {m}

/-- A step in which no episode stops. -/
theorem reports_of_stops_none {x : σ × History} {a : α} (h : m.stops x.1 a = none) :
    m.Reports x a := by
  intro x' given _ n hn
  cases h.symm.trans hn

/-- An episode stops with its first outcome. -/
theorem reports_of_outcome {x : σ × History} {a : α} {n : ℕ} (hstops : m.stops x.1 a = some n)
    (hfirst : n ∉ x.2.counted)
    (h : ∀ s' given, m.step x.1 a = some (s', given) →
      m.outcomes a given = [n] ∧ ¬ m.busy s') : m.Reports x a := by
  intro x' given hs k hk _
  obtain rfl : n = k := Option.some.inj (hstops.symm.trans hk)
  obtain ⟨hs, hh⟩ := traced_eq_some.mp hs
  obtain ⟨hout, hidle⟩ := h _ _ hs
  refine ⟨?_, hidle⟩
  rw [hh]
  show (m.outcomes a given ++ x.2.counted).count n = 1
  rw [hout, List.singleton_append, List.count_cons_self, List.count_eq_zero_of_not_mem hfirst]

/-- An episode stops in silence, and there was no outcome of it: it was asked to end. -/
theorem reports_iff_of_silent {x : σ × History} {a : α} {n : ℕ} (hstops : m.stops x.1 a = some n)
    (hfirst : n ∉ x.2.counted) (hreq : m.requests x.1 a = none)
    (hout : ∀ s' given, m.step x.1 a = some (s', given) → m.outcomes a given = []) :
    m.Reports x a ↔ ((m.step x.1 a).isSome = true → n ∈ x.2.requested) := by
  constructor
  · intro h hsome
    obtain ⟨⟨s', given⟩, hs⟩ := Option.isSome_iff_exists.mp hsome
    by_contra hnot
    have hreports := h (s', m.record x.1 x.2 a given) given
      (traced_eq_some.mpr ⟨hs, rfl⟩) n hstops (by simpa [record, hreq] using hnot)
    have hcount : (m.outcomes a given ++ x.2.counted).count n = 1 := hreports.1
    rw [hout _ _ hs, List.nil_append, List.count_eq_zero_of_not_mem hfirst] at hcount
    cases hcount
  · intro h x' given hs k hk hnot
    obtain rfl : n = k := Option.some.inj (hstops.symm.trans hk)
    obtain ⟨hs, hh⟩ := traced_eq_some.mp hs
    refine absurd (h (Option.isSome_iff_exists.mpr ⟨_, hs⟩)) ?_
    rw [hh] at hnot
    simpa [record, hreq] using hnot

/-- What is known of every episode that an outcome was given for. -/
def Told (P : σ → ℕ → Prop) (x : σ × History) : Prop := ∀ n ∈ x.2.counted, P x.1 n

/-- What a step leaves true, and makes true of the episodes that it gives outcomes of, is known of
every episode that an outcome was given for. -/
theorem Told.step {P : σ → ℕ → Prop} {x x' : σ × History} {a : α} {given : List β}
    (h : Told P x) (hs : m.traced x a = some (x', given)) (hkeep : ∀ n, P x.1 n → P x'.1 n)
    (hout : ∀ n ∈ m.outcomes a given, P x'.1 n) : Told P x' := by
  intro n hn
  rw [(traced_eq_some.mp hs).2] at hn
  rcases List.mem_append.mp hn with hn | hn
  · exact hout n hn
  · exact hkeep n (h n hn)

end Episodes

/-- Where the results of a machine are before they are given: which episodes have one under way, and
of which episode one arises in a step. What is given was under way or arises; and what is under way
was so before, or arises. -/
structure Results {σ α β : Type*} (m : Episodes σ α β) where
  holds : σ → ℕ → Prop
  arises : σ → α → Option ℕ
  given_of : ∀ {s s' : σ} {a : α} {given : List β}, m.step s a = some (s', given) →
    ∀ g ∈ given, m.isResult g = true →
      holds s (m.origin a g) ∨ arises s a = some (m.origin a g)
  holds_of : ∀ {s s' : σ} {a : α} {given : List β}, m.step s a = some (s', given) →
    ∀ n, holds s' n → holds s n ∨ arises s a = some n

namespace Results

variable {σ α β : Type*} {m : Episodes σ α β} (r : Results m)

/-- No episode has a result under way once it has ended, and no result of an ended episode arises.
-/
def Timely (x : σ × History) (a : α) : Prop :=
  (∀ n, m.ends x.1 x.2.requested a = some n →
      ∀ s' given, m.step x.1 a = some (s', given) → ¬ r.holds s' n) ∧
    ∀ n, r.arises x.1 a = some n → n ∉ x.2.ended

/-- No ended episode has a result under way. -/
def Settled (x : σ × History) : Prop := ∀ n ∈ x.2.ended, ¬ r.holds x.1 n

variable {r}

theorem settled_empty (s : σ) : r.Settled (s, .empty) := by
  intro n hn
  cases hn

/-- **The step lemma**: a timely step leaves no result of an ended episode under way. -/
theorem Settled.step {x x' : σ × History} (h : r.Settled x) {a : α} {given : List β}
    (ha : r.Timely x a) (hs : m.traced x a = some (x', given)) : r.Settled x' := by
  obtain ⟨hs, hh⟩ := Episodes.traced_eq_some.mp hs
  intro n hn hholds
  rw [hh] at hn
  rcases List.mem_append.mp hn with hend | hended
  · -- the episode ends in this very step
    exact ha.1 n (Option.mem_toList.mp hend) _ _ hs hholds
  · rcases r.holds_of hs n hholds with hwas | harises
    · exact h n hended hwas
    · exact ha.2 n harises hended

/-- A timely step gives no result of an ended episode. -/
theorem Settled.inTime {x : σ × History} (h : r.Settled x) {a : α} (ha : r.Timely x a) :
    m.InTime x a := by
  intro x' given hs g hg hres hended
  rcases r.given_of (Episodes.traced_eq_some.mp hs).1 g hg hres with hholds | harises
  · exact h _ hended hholds
  · exact ha.2 _ harises hended

/-- A step in which no episode ends and no result arises is timely. -/
theorem along_timely_cons {x x' : σ × History} {a : α} {acts : List α} {given : List β}
    (hs : m.traced x a = some (x', given)) (hends : m.ends x.1 x.2.requested a = none)
    (harises : r.arises x.1 a = none) (h : Along m.traced r.Timely x' acts) :
    Along m.traced r.Timely x (a :: acts) := by
  refine (along_cons_of_eq hs).mpr ⟨⟨?_, ?_⟩, h⟩
  · intro n hn
    cases hends.symm.trans hn
  · intro n hn
    cases harises.symm.trans hn

/-- **When no result of an ended episode is given**: where no episode ends with a result under way,
and no result of an ended episode arises. -/
theorem along_inTime (s : σ) {acts : List α} (h : Along m.traced r.Timely (s, .empty) acts) :
    Along m.traced m.InTime (s, .empty) acts :=
  Along.of_invariant (I := r.Settled) (fun _ _ _ _ hset ha hs => hset.step ha hs)
    (fun _ _ hset ha => hset.inTime ha) (settled_empty s) h

end Results

end LingmoAuthenticate.Lib
