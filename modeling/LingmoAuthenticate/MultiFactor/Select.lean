import LingmoAuthenticate.MultiFactor.Directory

/-!
# Which configuration an application gets

The key of an entry is the application type of its file name, while `GetConfig` compares what is
written in the file; only "*" in a file for "all" makes a difference between the two, and "*" is no
application that could ask.

* `Eligible dir a f c p`: the file `f` has a configuration for `a` of priority `p`.
* `loadConfigs_selects`: what is loaded is the configuration of greatest priority, in every order
  of the files.
* `getConfig_eq`: `GetConfig` looks up the application type, and then "all", in every order of the
  map; the two together are `config_selection`.
-/

namespace LingmoAuthenticate.MultiFactor

open Lib

/-! ## `GetConfig` -/

/-- The number of an application type. Source: `multifactor/config.go`,
`appTypeStringToAppTypeInt`; `authcommon/type.go`, `AppTypeLogin` and the following. -/
def appTypeStringToAppTypeInt : AppType → ℤ
  | .login => 1
  | .lock => 2
  | .authorization => 3
  | .other => 4
  | .all | .star | .unknown _ => 0

/-- The application type of a number. Source: `multifactor/config.go`,
`AppTypeIntToAppTypeString`. -/
def appTypeIntToAppTypeString (appType : ℤ) : AppType :=
  if appType = 1 then .login
  else if appType = 2 then .lock
  else if appType = 3 then .authorization
  else if appType = 4 then .other
  else .all

/-- `es` is the order in which the loop visits the map.
Source: `multifactor/multifactor.go`, `MFAConfig.GetConfig`. -/
def getConfig (configs : Configs) (es : List (Σ _ : AppType, ConfigWithPriority))
    (appType : ℤ) : Option Config :=
  match es.find? fun e => appTypeStringToAppTypeInt e.2.config.applicationType = appType with
  | some e => some e.2.config
  | none => (configs.lookup .all).map ConfigWithPriority.config

/-- A number names its application type. -/
theorem appTypeIntToAppTypeString_of_eq {a : AppType} {appType : ℤ}
    (h : appTypeStringToAppTypeInt a = appType) (h0 : appType ≠ 0) :
    appTypeIntToAppTypeString appType = a := by
  cases a with
  | login => exact h ▸ rfl
  | lock => exact h ▸ rfl
  | authorization => exact h ▸ rfl
  | other => exact h ▸ rfl
  | all => exact absurd h.symm h0
  | star => exact absurd h.symm h0
  | unknown name => exact absurd h.symm h0

/-- A number that names no application type in particular names all of them. -/
theorem appTypeStringToAppTypeInt_of_ne {appType : ℤ}
    (h : appTypeIntToAppTypeString appType ≠ .all) :
    appTypeStringToAppTypeInt (appTypeIntToAppTypeString appType) = appType := by
  unfold appTypeIntToAppTypeString at h ⊢
  split_ifs at h ⊢ with h₁ h₂ h₃ h₄
  · exact h₁.symm
  · exact h₂.symm
  · exact h₃.symm
  · exact h₄.symm
  · exact absurd rfl h

section select

variable {α : Type} {toConfigObject : α → Option Config} {dir : Dir α} {a : AppType} {f : String}
  {c : Config} {p : ℤ} {e : ConfigWithPriority}

/-! ## The files that count -/

/-- The file has a configuration for the application type: its name is well-formed and of that
type, what is in it is valid, and is for that type as well, or for "*" where the name says "all". -/
structure Eligible (toConfigObject : α → Option Config) (dir : Dir α) (a : AppType) (f : String)
    (c : Config) (p : ℤ) : Prop where
  content : ∃ content, dir.lookup f = some content ∧ toConfigObject content = some c
  name : resolveFilename f = some ⟨p, a⟩
  valid : c.isValidConfig = true
  matching : c.applicationType = a ∨ a = .all ∧ c.applicationType = .star

/-- The files of one application type have distinct priorities in their names. -/
def DistinctNames (dir : Dir α) : Prop :=
  ∀ f g a p, (dir.lookup f).isSome → (dir.lookup g).isSome → resolveFilename f = some ⟨p, a⟩ →
    resolveFilename g = some ⟨p, a⟩ → f = g

/-- The configuration of greatest priority: it comes from a file that is eligible for the type, and
every other eligible file has a smaller priority. -/
structure Selected (toConfigObject : α → Option Config) (dir : Dir α) (a : AppType) (f : String)
    (c : Config) (p : ℤ) : Prop where
  eligible : Eligible toConfigObject dir a f c p
  greatest : ∀ g d q, Eligible toConfigObject dir a g d q → g ≠ f → q < p

/-- **The files that count** are those that stand for an entry. -/
theorem candidate_eq_some_iff :
    candidate toConfigObject dir f = some (a, e) ↔
      e.file = f ∧ Eligible toConfigObject dir a f e.config e.priority := by
  unfold candidate entryOf
  simp only [Option.bind_eq_some_iff, Option.ite_none_right_eq_some,
    Option.ite_none_left_eq_some, Option.some.injEq, Prod.mk.injEq]
  constructor
  · rintro ⟨content, hcontent, c, hc, info, hinfo, hvalid, hmatch, rfl, rfl⟩
    refine ⟨rfl, ⟨content, hcontent, hc⟩, hinfo, hvalid, ?_⟩
    by_cases heq : c.applicationType = info.appType
    · exact .inl heq
    · exact .inr (not_not.mp fun hstar => hmatch ⟨Ne.symm heq, hstar⟩)
  · rintro ⟨rfl, ⟨⟨content, hcontent, hc⟩, hinfo, hvalid, hmatch⟩⟩
    refine ⟨content, hcontent, e.config, hc, _, hinfo, hvalid, ?_, rfl, rfl⟩
    rintro ⟨hne, hstar⟩
    exact hstar (hmatch.resolve_left fun heq => hne heq.symm)

/-- Distinct names have distinct entries. -/
theorem distinctPriorities_of_names (h : DistinctNames dir) :
    DistinctPriorities toConfigObject dir := by
  intro f g a e e' hf hg hpriority
  obtain ⟨-, hf⟩ := candidate_eq_some_iff.mp hf
  obtain ⟨-, hg⟩ := candidate_eq_some_iff.mp hg
  obtain ⟨content, hcontent, -⟩ := hf.content
  obtain ⟨content', hcontent', -⟩ := hg.content
  have hname := hg.name
  rw [← hpriority] at hname
  exact h f g a e.priority (by rw [hcontent]; rfl) (by rw [hcontent']; rfl) hf.name hname

/-! ## Loading selects -/

/-- **An exact map** holds, for each application type, the configuration of greatest priority. -/
theorem Exact.lookup_eq_some_iff {configs : Configs} (h : Exact toConfigObject dir configs)
    (hdistinct : DistinctNames dir) :
    configs.lookup a = some e ↔ Selected toConfigObject dir a e.file e.config e.priority := by
  constructor
  · intro he
    have hself := h.entries a e he
    refine ⟨(candidate_eq_some_iff.mp hself).2, ?_⟩
    intro g d q hg hne
    have hcand : candidate toConfigObject dir g = some (a, ⟨d, q, g⟩) :=
      candidate_eq_some_iff.mpr ⟨rfl, hg⟩
    obtain ⟨val, hval, hle⟩ := h.covers g a _ hcand
    obtain rfl : e = val := Option.some.inj (he.symm.trans hval)
    refine lt_of_le_of_ne hle ?_
    intro heq
    exact hne (distinctPriorities_of_names hdistinct _ _ _ _ _ hcand hself heq)
  · intro hsel
    have hcand : candidate toConfigObject dir e.file = some (a, e) :=
      candidate_eq_some_iff.mpr ⟨rfl, hsel.eligible⟩
    obtain ⟨val, hval, hle⟩ := h.covers _ a e hcand
    have hval' := h.entries a val hval
    by_cases hfile : val.file = e.file
    · rw [hfile, hcand, Option.some.injEq, Prod.mk.injEq] at hval'
      rw [hval, hval'.2]
    · have hlt := hsel.greatest _ _ _ (candidate_eq_some_iff.mp hval').2 hfile
      exact absurd hle (not_le.mpr hlt)

/-- **Loading selects** the configuration of greatest priority, in every order of the files. -/
theorem loadConfigs_selects (order : GoMap.RangeOrder String α) (hdistinct : DistinctNames dir)
    (a : AppType) :
    (∀ f c p, (loadConfigs toConfigObject order dir).lookup a = some ⟨c, p, f⟩ ↔
      Selected toConfigObject dir a f c p) ∧
    ((loadConfigs toConfigObject order dir).lookup a = none ↔
      ∀ f c p, ¬ Eligible toConfigObject dir a f c p) := by
  have hexact := exact_loadConfigs toConfigObject order dir
  refine ⟨fun f c p => hexact.lookup_eq_some_iff hdistinct, ?_⟩
  constructor
  · intro hnone f c p hel
    obtain ⟨val, hval, -⟩ := hexact.covers f a ⟨c, p, f⟩ (candidate_eq_some_iff.mpr ⟨rfl, hel⟩)
    rw [hnone] at hval
    cases hval
  · intro hnone
    rcases hl : (loadConfigs toConfigObject order dir).lookup a with _ | e
    · rfl
    · exact absurd ((hexact.lookup_eq_some_iff hdistinct).mp hl).eligible (hnone _ _ _)

/-! ## `GetConfig` reads by application type -/

/-- A well-formed name is of an application type that is supported. -/
theorem resolveFilename_supported {info : MfaFileInfo} (h : resolveFilename f = some info) :
    isSupportedAppType info.appType = true := by
  unfold resolveFilename at h
  split at h
  · dsimp only at h
    split_ifs at h with hsup
    split at h
    · obtain ⟨priority, -, rfl⟩ := Option.map_eq_some_iff.mp h
      exact hsup
    · cases h
  · cases h

/-- An entry whose file is for an application that can ask is under that application. -/
theorem Exact.key_of_appType {configs : Configs} (h : Exact toConfigObject dir configs)
    (he : configs.lookup a = some e) :
    a = appTypeIntToAppTypeString (appTypeStringToAppTypeInt e.config.applicationType) := by
  obtain ⟨-, hel⟩ := candidate_eq_some_iff.mp (h.entries a e he)
  by_cases h0 : appTypeStringToAppTypeInt e.config.applicationType = 0
  · -- no particular application: the key is "all", since no other key has the number 0
    rw [h0]
    show a = .all
    rcases hel.matching with heq | ⟨hall, -⟩
    · obtain ⟨-, hsupported, -, -⟩ := isValidConfig_iff.mp hel.valid
      rw [heq] at h0 hsupported
      cases a with
      | all => rfl
      | star => cases resolveFilename_supported hel.name
      | unknown name =>
          rcases hsupported with hsup | hstar
          · cases hsup
          · cases hstar
      | login => cases h0
      | lock => cases h0
      | authorization => cases h0
      | other => cases h0
    · exact hall
  · rw [appTypeIntToAppTypeString_of_eq rfl h0]
    rcases hel.matching with heq | ⟨-, hstar⟩
    · exact heq.symm
    · rw [hstar] at h0
      exact absurd rfl h0

/-- **`GetConfig`** looks up the application type of the number and then "all", in every order in
which the loop may visit the map. -/
theorem getConfig_eq {configs : Configs} (h : Exact toConfigObject dir configs)
    {es : List (Σ _ : AppType, ConfigWithPriority)} (hes : configs.Ranges es) (appType : ℤ) :
    getConfig configs es appType =
      ((configs.lookup (appTypeIntToAppTypeString appType)).or (configs.lookup .all)).map
        ConfigWithPriority.config := by
  unfold getConfig
  rcases hfind : es.find? (fun e => appTypeStringToAppTypeInt e.2.config.applicationType = appType)
    with _ | ⟨k, e⟩
  · -- nothing under the application type, since its entry would have been found
    rw [hfind]
    dsimp only
    by_cases hall : appTypeIntToAppTypeString appType = .all
    · rw [hall, Option.or_self]
    · rcases hl : configs.lookup (appTypeIntToAppTypeString appType) with _ | e
      · rfl
      · have hmem := hes.mem_iff.mpr hl
        have hkey := h.key_of_appType hl
        have hnot := List.find?_eq_none.mp hfind _ hmem
        simp only [decide_eq_true_eq] at hnot
        have hmatch : appTypeStringToAppTypeInt (appTypeIntToAppTypeString
            (appTypeStringToAppTypeInt e.config.applicationType)) = appType := by
          rw [← hkey]
          exact appTypeStringToAppTypeInt_of_ne hall
        rw [appTypeStringToAppTypeInt_of_ne (hkey ▸ hall)] at hmatch
        exact absurd hmatch hnot
  · rw [hfind]
    have hl := hes.mem_iff.mp (List.mem_of_find?_eq_some hfind)
    have hmatch : appTypeStringToAppTypeInt e.config.applicationType = appType := by
      simpa using List.find?_some hfind
    have hkey := h.key_of_appType hl
    rw [hmatch] at hkey
    rw [← hkey, hl]
    rfl

/-- **The selection.** Of a directory whose files of one application type have distinct priorities,
loaded in any order, the map holds for each application type the configuration of greatest priority
among the files that count, and nothing where none does; and `GetConfig` gives the one of the
application type that asks, else the one for all, else none, in every order of the map. -/
theorem config_selection (order : GoMap.RangeOrder String α) (hdistinct : DistinctNames dir) :
    (∀ a, (∀ f c p, (loadConfigs toConfigObject order dir).lookup a = some ⟨c, p, f⟩ ↔
        Selected toConfigObject dir a f c p) ∧
      ((loadConfigs toConfigObject order dir).lookup a = none ↔
        ∀ f c p, ¬ Eligible toConfigObject dir a f c p)) ∧
    ∀ es, (loadConfigs toConfigObject order dir).Ranges es → ∀ appType,
      getConfig (loadConfigs toConfigObject order dir) es appType =
        (((loadConfigs toConfigObject order dir).lookup (appTypeIntToAppTypeString appType)).or
          ((loadConfigs toConfigObject order dir).lookup .all)).map ConfigWithPriority.config :=
  ⟨fun a => loadConfigs_selects order hdistinct a,
    fun _ hes appType => getConfig_eq (exact_loadConfigs toConfigObject order dir) hes appType⟩

/-- Distinct names are a matter of the files that there are. -/
theorem distinctNames_of_keys
    (h : ∀ f ∈ dir.keys, ∀ g ∈ dir.keys, ∀ info ∈ resolveFilename f,
      resolveFilename g = some info → f = g) : DistinctNames dir := by
  intro f g a p hf hg hnf hng
  rw [AList.lookup_isSome, AList.mem_keys] at hf hg
  exact h f hf g hg _ hnf hng

end select

/-- A configuration for all applications. -/
def starFile : String :=
  "\x7b\"ApplicationType\":\"*\",\"RequestVerificationType\":[\x7b\"Type\":\"password\"\x7d]\x7d"

/-- A configuration for the login without a factor. -/
def emptyFile : String := "\x7b\"ApplicationType\":\"login\"\x7d"

/-- How the files of `loginDir` are read. Source: `multifactor/config.go`, `toConfigObject`. -/
def readLoginFile (content : String) : Option Config :=
  if content = starFile then some ⟨.star, [⟨.password, ""⟩]⟩
  else if content = emptyFile then some ⟨.login, []⟩
  else readFile content

/-- Three files for the login, of which the one of greatest priority has no factor; one whose name
is of another application than its content; and one for all applications. -/
def loginDir : Dir String :=
  [("mfa-login-01.json", passwordFile), ("mfa-login-02.json", faceFile),
    ("mfa-login-03.json", emptyFile), ("mfa-lock-05.json", faceFile),
    ("mfa-all-04.json", starFile)].foldl (fun dir e => dir.insert e.1 e.2) ∅

/-- The second file is selected for the login, the one with the star for all, and nothing for the
lock, which therefore gets the configuration for all. -/
theorem config_selection_loginDir :
    Selected readLoginFile loginDir .login "mfa-login-02.json" ⟨.login, [⟨.face, ""⟩]⟩ 2 ∧
    Selected readLoginFile loginDir .all "mfa-all-04.json" ⟨.star, [⟨.password, ""⟩]⟩ 4 ∧
    (∀ f c p, ¬ Eligible readLoginFile loginDir .lock f c p) ∧
    ∀ es, (loadConfigs readLoginFile (.listed _ _) loginDir).Ranges es →
      getConfig (loadConfigs readLoginFile (.listed _ _) loginDir) es 1 =
          some ⟨.login, [⟨.face, ""⟩]⟩ ∧
        getConfig (loadConfigs readLoginFile (.listed _ _) loginDir) es 2 =
          some ⟨.star, [⟨.password, ""⟩]⟩ := by
  have hdistinct : DistinctNames loginDir := distinctNames_of_keys (by decide +kernel)
  obtain ⟨hload, hget⟩ :=
    @config_selection String readLoginFile loginDir (.listed _ _) hdistinct
  refine ⟨((hload .login).1 _ _ _).mp ?_, ((hload .all).1 _ _ _).mp ?_, (hload .lock).2.mp ?_, ?_⟩
  · decide +kernel
  · decide +kernel
  · decide +kernel
  · intro es hes
    rw [hget es hes 1, hget es hes 2]
    decide +kernel

end LingmoAuthenticate.MultiFactor
