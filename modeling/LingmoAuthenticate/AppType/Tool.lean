import LingmoAuthenticate.Lib.GoSlice

/-!
# `app-type-tool`: the type of an application

The tool takes the path of an application and a type, removes the entries of the application from
the list, and appends one with the type. The entries are removed while the loop goes over the slice
of them.

* `main`: a run of the tool; `none` is a panic.
* `Covered`: the list that is written has the entry, and the others as they were.
* `main_covers_iff`: that is so exactly if the application has one entry at most, or no two that are
  neighbours and not the last one.
-/

namespace LingmoAuthenticate.AppType

open Lib

/-- Source: `main.go`, `AppConfig`. -/
structure AppConfig where
  app : String
  type : String
  deriving DecidableEq, Repr

/-- Source: `main.go`, `AppTypeConfig`. -/
structure AppTypeConfig where
  appType : GoSlice AppConfig

/-- Source: `main.go`, `isSupportedAppType`. -/
def isSupportedAppType (type0 : String) : Bool :=
  type0 = "login" ∨ type0 = "lock" ∨ type0 = "authorization" ∨ type0 = "other"

/-- The arguments of a run: how many there are with the name of the program (`count`), and the
values of the flags for the application and for the type, empty where a flag is not given. -/
structure Args where
  count : ℕ
  app : String
  type0 : String

/-- The list that a run writes, if it writes one. `configs` is what `loadConfig` gives: without a
list that can be read it is nil, and its fields cannot be read. Source: `main.go`, `main`. -/
def main (args : Args) (configs : Option AppTypeConfig) : Option (Option (List AppConfig)) :=
  if args.count ≠ 5 then some none
  else if args.app = "" ∨ args.type0 = "" then some none
  else if !isSupportedAppType args.type0 then some none
  else do
    let appType ← GoSlice.rangeRemove (fun conf => conf.app = args.app) (← configs).appType
    return some (appType.append [{ type := args.type0, app := args.app }]).elems

/-- The arguments name an application and a type that is supported. -/
structure Args.Valid (args : Args) : Prop where
  count : args.count = 5
  app : args.app ≠ ""
  type0 : isSupportedAppType args.type0 = true

/-- The run ends, and the list that it writes has the entries of the other applications as they
were, and then the one of the application. -/
def Covered (args : Args) (entries : List AppConfig) (r : Option (Option (List AppConfig))) :
    Prop :=
  r = some (some (entries.filter (fun conf => conf.app ≠ args.app) ++
    [{ type := args.type0, app := args.app }]))

instance (args : Args) (entries : List AppConfig) (r : Option (Option (List AppConfig))) :
    Decidable (Covered args entries r) :=
  inferInstanceAs (Decidable (_ = _))

/-- What a run with valid arguments comes to. -/
theorem main_of_valid {args : Args} (h : args.Valid) (configs : AppTypeConfig) :
    main args (some configs) =
      ((GoSlice.rangeRemove (fun conf => conf.app = args.app) configs.appType).map
        GoSlice.elems).map fun es => some (es ++ [{ type := args.type0, app := args.app }]) := by
  have htype : args.type0 ≠ "" := by
    intro heq
    have hsupported := h.type0
    rw [heq] at hsupported
    exact absurd hsupported (by decide)
  rw [main, if_neg (by simp [h.count]), if_neg (by simp [h.app, htype]), if_neg (by simp [h.type0])]
  cases hloop : GoSlice.rangeRemove (fun conf => decide (conf.app = args.app)) configs.appType with
  | none => simp [hloop]
  | some s => simp [hloop]

/-- **The tool covers the type of an application**, exactly if the list has one entry of it at most,
or if no two of its entries are neighbours and the last entry of the list is of another. -/
theorem main_covers_iff {args : Args} (h : args.Valid) (entries spare : List AppConfig) :
    Covered args entries (main args (some ⟨.ofList entries spare⟩)) ↔
      entries.countP (fun conf => conf.app = args.app) ≤ 1 ∨
        entries.IsChain (fun conf next => ¬ (conf.app = args.app ∧ next.app = args.app)) ∧
          ∀ conf ∈ entries.getLast?, conf.app ≠ args.app := by
  have hiff := GoSlice.rangeRemove_iff (fun conf : AppConfig => conf.app = args.app) entries spare
  simp only [GoSlice.Separate, decide_eq_true_eq, decide_eq_false_iff_not] at hiff
  have hfilter : (entries.filter fun conf => conf.app ≠ args.app) =
      entries.filter fun conf => !decide (conf.app = args.app) := by
    simp only [ne_eq, decide_not]
  rw [← hiff, Covered, main_of_valid h, hfilter, Option.map_eq_some_iff]
  constructor
  · rintro ⟨es, hes, heq⟩
    rw [Option.some.injEq] at heq
    rw [hes, List.append_cancel_right heq]
  · exact fun hloop => ⟨_, hloop, rfl⟩

/-- Two entries that are not neighbours, and another at the end. -/
theorem main_covers_sudo :
    Covered ⟨5, "/usr/bin/sudo", "lock"⟩
      [⟨"/usr/bin/sudo", "login"⟩, ⟨"/usr/bin/su", "other"⟩, ⟨"/usr/bin/sudo", "other"⟩,
        ⟨"/usr/bin/pkexec", "authorization"⟩]
      (main ⟨5, "/usr/bin/sudo", "lock"⟩ (some ⟨.ofList
        [⟨"/usr/bin/sudo", "login"⟩, ⟨"/usr/bin/su", "other"⟩, ⟨"/usr/bin/sudo", "other"⟩,
          ⟨"/usr/bin/pkexec", "authorization"⟩] []⟩)) :=
  (main_covers_iff ⟨rfl, by decide, by decide⟩ _ []).mpr (.inr ⟨by simp, by simp⟩)

/-- **Two entries of one application**: the tool panics where they are the whole list, and keeps the
second where another entry follows. -/
theorem two_entries_not_covered :
    main ⟨5, "/usr/bin/sudo", "lock"⟩ (some ⟨.ofList
      [⟨"/usr/bin/sudo", "login"⟩, ⟨"/usr/bin/sudo", "other"⟩] []⟩) = none ∧
    main ⟨5, "/usr/bin/sudo", "lock"⟩ (some ⟨.ofList
      [⟨"/usr/bin/sudo", "login"⟩, ⟨"/usr/bin/sudo", "other"⟩, ⟨"/usr/bin/su", "other"⟩] []⟩) =
      some (some [⟨"/usr/bin/sudo", "other"⟩, ⟨"/usr/bin/su", "other"⟩,
        ⟨"/usr/bin/sudo", "lock"⟩]) ∧
    ¬ ∀ (args : Args), args.Valid → ∀ entries spare : List AppConfig,
      Covered args entries (main args (some ⟨.ofList entries spare⟩)) := by
  refine ⟨by decide, by decide, ?_⟩
  intro h
  have hcovered := h ⟨5, "/usr/bin/sudo", "lock"⟩ ⟨rfl, by decide, by decide⟩
    [⟨"/usr/bin/sudo", "login"⟩, ⟨"/usr/bin/sudo", "other"⟩] []
  exact absurd hcovered (by decide)

end LingmoAuthenticate.AppType
