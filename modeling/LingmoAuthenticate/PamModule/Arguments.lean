import Mathlib.Data.List.Induction
import LingmoAuthenticate.Lib.CString
import LingmoAuthenticate.PamModule.LimitsInfo

/-!
# The arguments of the module, and the program that it is called in

`pam_sm_authenticate` goes over its arguments with the array `buff`, and then reads the path of the
program into the same array; `readlink` writes no NUL. What stands there then is
looked up in the list of the programs that are allowed, and in that of the types of programs.

* `Arguments.round`: a round of the loop; an `=` past the end of `buff` is written there.
* `appPath`: the path that is looked up.
* `looked_up_iff`: what is looked up begins with the path of the program, and when it is that path.
-/

namespace LingmoAuthenticate.PamModule

open Lib

/-! ## The arguments -/

/-- Source: `pam.c`, `TIMEOUT_FLAG`. -/
def timeoutFlag : CString := .ofBytes (bytes "timeout")

/-- Source: `pam.c`, `USER_LOCALE_FLAG`. -/
def userLocaleFlag : CString := .ofBytes (bytes "user_locale")

/-- Source: `pam.c`, `DEBUG_FLAG`. -/
def debugFlag : CString := .ofBytes (bytes "debug")

/-- What the loop over the arguments writes. Source: `pam.c`, the variables of
`pam_sm_authenticate`, and `set_debug_flag`. -/
structure Arguments where
  buff : CharArray
  timeout : ℤ
  userLocale : CharArray
  debug : Bool

namespace Arguments

/-- Before the loop. -/
def start : Arguments where
  buff := List.replicate maxBufSize 0
  timeout := 60000
  userLocale := List.replicate maxBufSize 0
  debug := false

/-- The end of a round. -/
def checkDebug (s : Arguments) : Option Arguments := do
  return if (← s.buff.text) = debugFlag then { s with debug := true } else s

/-- A round. Source: `pam.c`, the loop over `argv` in `pam_sm_authenticate`. -/
def round (s : Arguments) (arg : CString) : Option Arguments := do
  let s := { s with buff := ← s.buff.strncpy arg (maxBufSize - 1) }
  match arg.strchr 61 with
  | none => s.checkDebug
  | some splitch => do
      let s := { s with buff := ← s.buff.putNul splitch }
      let name ← s.buff.text
      let value := arg.drop (splitch + 1)
      if name = timeoutFlag then return { s with timeout := atoi value }
      else if name = userLocaleFlag then
        return { s with userLocale := ← s.userLocale.strncpy value (maxBufSize - 1) }
      else s.checkDebug

end Arguments

/-- Source: `pam.c`, the loop over `argv` in `pam_sm_authenticate`. -/
def readArguments (argv : List CString) : Option Arguments :=
  argv.foldlM Arguments.round .start

/-- What is looked up, where `exe` is what `/proc/self/exe` links to; it is copied to an array of
the same size. Source: `pam.c`, `app_path` in `pam_sm_authenticate`. -/
def appPath (argv : List CString) (exe : CString) : Option CString := do
  let s ← readArguments argv
  (← s.buff.put (exe.bytes.take maxBufSize)).text

/-! ## The array after the loop -/

section loop

variable {s s' : Arguments} {arg exe : CString} {argv : List CString} {n : ℕ}

/-- The arrays of the module have their sizes, and the last byte of `buff` is never written, so that
what is read there as a string ends within the array. -/
structure Arguments.Sized (s : Arguments) : Prop where
  buff : s.buff.length = maxBufSize
  nul : s.buff[maxBufSize - 1]? = some 0
  userLocale : s.userLocale.length = maxBufSize

/-- There is a NUL at the position after an argument: it is the last one of the array, or the
argument is not longer, or its first `=` was there. -/
def EndsAt (arg : CString) (n : ℕ) : Prop :=
  n = maxBufSize - 1 ∨ n < maxBufSize ∧ arg.bytes.length ≤ n ∨ arg.strchr 61 = some n

theorem sized_start : Arguments.start.Sized :=
  ⟨List.length_replicate, by decide, List.length_replicate⟩

theorem Arguments.Sized.text_isSome (h : s.Sized) : s.buff.text.isSome := by
  have hmem : (0 : UInt8) ∈ s.buff := List.mem_of_getElem? h.nul
  rw [CharArray.text, if_pos hmem]
  rfl

/-- No string has a NUL. -/
theorem getD_eq_zero_iff (arg : CString) (n : ℕ) :
    arg.bytes.getD n 0 = 0 ↔ arg.bytes.length ≤ n := by
  rw [List.getD_eq_getElem?_getD]
  by_cases hn : n < arg.bytes.length
  · rw [List.getElem?_eq_getElem hn, Option.getD_some]
    constructor
    · exact fun h => absurd (h ▸ List.getElem_mem hn) arg.noNul
    · omega
  · rw [List.getElem?_eq_none (by omega)]
    simp only [Option.getD_none, true_iff]
    omega

/-- The end of a round only writes the flag. -/
theorem checkDebug_spec (h : s.Sized) : ∃ s', s.checkDebug = some s' ∧ s'.Sized ∧
    s'.buff = s.buff := by
  obtain ⟨name, hname⟩ := Option.isSome_iff_exists.mp h.text_isSome
  rw [Arguments.checkDebug, hname]
  refine ⟨_, rfl, ?_⟩
  split_ifs
  · exact ⟨⟨h.buff, h.nul, h.userLocale⟩, rfl⟩
  · exact ⟨h, rfl⟩

/-- An argument is copied to the array. -/
theorem Arguments.Sized.copy (h : s.Sized) (arg : CString) :
    ∃ a, s.buff.strncpy arg (maxBufSize - 1) = some a ∧ { s with buff := a }.Sized ∧
      ∀ n, a[n]? = some 0 ↔
        n = maxBufSize - 1 ∨ n < maxBufSize ∧ arg.bytes.length ≤ n := by
  obtain ⟨a, ha, hlen, hget⟩ := CharArray.strncpy_spec (n := maxBufSize - 1)
    (by rw [h.buff]; decide) arg
  have hlast : a[maxBufSize - 1]? = some 0 := by
    rw [hget, if_neg (lt_irrefl _), h.nul]
  refine ⟨a, ha, ⟨hlen.trans h.buff, hlast, h.userLocale⟩, fun n => ?_⟩
  have hsize : maxBufSize = 256 := rfl
  rcases lt_trichotomy n (maxBufSize - 1) with hn | rfl | hn
  · rw [hget, if_pos hn, Option.some.injEq, getD_eq_zero_iff]
    omega
  · simp only [hlast, true_or]
  · have hnone : a[n]? = none := List.getElem?_eq_none (by rw [hlen, h.buff]; omega)
    rw [hnone]
    simp only [reduceCtorEq, false_iff]
    omega

/-- A NUL is written over the first `=`. -/
theorem Arguments.Sized.cut (h : s.Sized) {i : ℕ} (hi : i < maxBufSize) :
    ∃ a, s.buff.putNul i = some a ∧ { s with buff := a }.Sized ∧
      ∀ n, a[n]? = some 0 ↔ s.buff[n]? = some 0 ∨ n = i := by
  have hlt : i < s.buff.length := by rwa [h.buff]
  have hget : ∀ n, (s.buff.set i 0)[n]? = some 0 ↔ s.buff[n]? = some 0 ∨ n = i := by
    intro n
    rw [List.getElem?_set]
    by_cases hin : i = n
    · simp only [hin, if_true, hin ▸ hlt, or_true]
    · rw [if_neg hin]
      simp only [Ne.symm hin, or_false]
  refine ⟨s.buff.set i 0, by rw [CharArray.putNul, if_pos hlt], ⟨?_, ?_, h.userLocale⟩, hget⟩
  · exact List.length_set.trans h.buff
  · exact (hget _).mpr (.inl h.nul)

/-- **A round**: it ends unless the first `=` of the argument is past the end of the array, and then
there are NULs in the array where the argument ends. -/
theorem round_spec (h : s.Sized) (arg : CString) :
    (∀ i ∈ arg.strchr 61, i < maxBufSize) ∧ (∃ s', s.round arg = some s' ∧ s'.Sized ∧
      ∀ n, s'.buff[n]? = some 0 ↔ EndsAt arg n) ∨
    (∃ i ∈ arg.strchr 61, maxBufSize ≤ i) ∧ s.round arg = none := by
  obtain ⟨a, ha, hsized, hends⟩ := h.copy arg
  rcases hsplit : arg.strchr 61 with _ | i
  · obtain ⟨s', hs', hsized', hbuff⟩ := checkDebug_spec hsized
    refine .inl ⟨fun i hi => (by cases hi), s', ?_, hsized', fun n => ?_⟩
    · simp only [Arguments.round, ha, hsplit, Option.bind_eq_bind, Option.bind_some]
      exact hs'
    · rw [hbuff, hends, EndsAt, hsplit]
      simp
  · by_cases hi : i < maxBufSize
    · left
      obtain ⟨b, hb, hsized', hends'⟩ := hsized.cut hi
      obtain ⟨name, hname⟩ := Option.isSome_iff_exists.mp hsized'.text_isSome
      have hnul : ∀ n, b[n]? = some 0 ↔ EndsAt arg n := by
        intro n
        rw [hends', hends, EndsAt, hsplit, Option.some.injEq, or_assoc]
        simp only [eq_comm]
      refine ⟨fun j hj => by rwa [← Option.some.inj hj], ?_⟩
      have hround : s.round arg =
          if name = timeoutFlag then
            some { s with buff := b, timeout := atoi (arg.drop (i + 1)) }
          else if name = userLocaleFlag then
            (s.userLocale.strncpy (arg.drop (i + 1)) (maxBufSize - 1)).map fun l =>
              { s with buff := b, userLocale := l }
          else { s with buff := b }.checkDebug := by
        simp only [Arguments.round, ha, hsplit, hb, hname, Option.bind_eq_bind, Option.bind_some]
        split_ifs
        · rfl
        · cases s.userLocale.strncpy (arg.drop (i + 1)) (maxBufSize - 1) with
          | none => rfl
          | some l => rfl
        · rfl
      rw [hround]
      split_ifs
      · exact ⟨_, rfl, ⟨hsized'.buff, hsized'.nul, hsized'.userLocale⟩, hnul⟩
      · obtain ⟨l, hl, hlen, -⟩ := CharArray.strncpy_spec (n := maxBufSize - 1)
          (by rw [h.userLocale]; decide) (arg.drop (i + 1))
        rw [hl]
        exact ⟨_, rfl, ⟨hsized'.buff, hsized'.nul, hlen.trans h.userLocale⟩, hnul⟩
      · obtain ⟨s', hs', hsized'', hbuff⟩ := checkDebug_spec hsized'
        exact ⟨s', hs', hsized'', by rw [hbuff]; exact hnul⟩
    · refine .inr ⟨⟨i, rfl, not_lt.mp hi⟩, ?_⟩
      have hnone : CharArray.putNul a i = none := by
        rw [CharArray.putNul, if_neg]
        rwa [hsized.buff]
      simp only [Arguments.round, ha, hsplit, hnone, Option.bind_eq_bind, Option.bind_some,
        Option.bind_none]

/-- Each first `=` is in the array. -/
def NamesFit (argv : List CString) : Prop := ∀ arg ∈ argv, ∀ i ∈ arg.strchr 61, i < maxBufSize

/-- **The loop**: it ends exactly if each name fits, and then the array has NULs where the last
argument ends, or everywhere. -/
theorem readArguments_spec (argv : List CString) :
    NamesFit argv ∧ (∃ s, readArguments argv = some s ∧ s.Sized ∧
      ∀ n, s.buff[n]? = some 0 ↔ n < maxBufSize ∧ ∀ arg ∈ argv.getLast?, EndsAt arg n) ∨
    ¬ NamesFit argv ∧ readArguments argv = none := by
  induction argv using List.reverseRecOn with
  | nil =>
      refine .inl ⟨fun arg harg => absurd harg List.not_mem_nil, .start, rfl, sized_start, ?_⟩
      intro n
      simp [Arguments.start, List.getElem?_replicate]
  | append_singleton argv arg ih =>
      have hfold : readArguments (argv ++ [arg]) =
          (readArguments argv).bind fun s => s.round arg := by
        rw [readArguments, List.foldlM_append, ← readArguments]
        cases readArguments argv with
        | none => rfl
        | some s => simp [List.foldlM]
      have hnames : NamesFit (argv ++ [arg]) ↔
          NamesFit argv ∧ ∀ i ∈ arg.strchr 61, i < maxBufSize := by
        simp [NamesFit, or_imp, forall_and]
      rw [hfold, hnames]
      rcases ih with ⟨hfit, s, hs, hsized, -⟩ | ⟨hno, hnone⟩
      · rw [hs, Option.bind_some]
        rcases round_spec hsized arg with ⟨hi, s', hs', hsized', hends⟩ | ⟨⟨i, hi, hle⟩, hnone⟩
        · refine .inl ⟨⟨hfit, hi⟩, s', hs', hsized', fun n => ?_⟩
          have hlt : EndsAt arg n → n < maxBufSize := by
            rintro (rfl | ⟨hlt, -⟩ | hsplit)
            · decide
            · exact hlt
            · exact hi n hsplit
          rw [hends, List.getLast?_append]
          simpa using hlt
        · exact .inr ⟨fun h => absurd (h.2 i hi) (not_lt.mpr hle), hnone⟩
      · exact .inr ⟨fun h => hno h.1, by rw [hnone]; rfl⟩

/-- A path that fills the array leaves no NUL in it. -/
theorem put_full {a : CharArray} (hlen : a.length = maxBufSize)
    (hle : maxBufSize ≤ exe.bytes.length) :
    (a.put (exe.bytes.take maxBufSize)).bind CharArray.text = none := by
  have htake : (exe.bytes.take maxBufSize).length = a.length := by
    rw [List.length_take, hlen, min_eq_left hle]
  rw [CharArray.put, if_pos htake.le, Option.bind_some, htake, List.drop_length, List.append_nil,
    CharArray.text, if_neg fun h => exe.noNul (List.mem_of_mem_take h)]

theorem appPath_of_read (hs : readArguments argv = some s) :
    appPath argv exe = (s.buff.put (exe.bytes.take maxBufSize)).bind CharArray.text := by
  rw [appPath, hs]
  rfl

/-- What is looked up begins with the path. -/
theorem prefix_of_appPath {path : CString} (h : appPath argv exe = some path) :
    exe.bytes <+: path.bytes := by
  rcases readArguments_spec argv with ⟨-, s, hs, hsized, -⟩ | ⟨-, hnone⟩
  · rw [appPath_of_read hs] at h
    rcases lt_or_ge exe.bytes.length maxBufSize with hlt | hle
    · rw [List.take_of_length_le hlt.le] at h
      exact CharArray.prefix_of_text_put h
    · rw [put_full hsized.buff hle] at h
      cases h
  · rw [appPath, hnone] at h
    cases h

/-- **The program is looked up under its own path**: for all arguments and every path, the look-up
is defined exactly if each first `=` of an argument is in the array and the path leaves room for a
NUL; what is looked up begins with the path, and is the path exactly if the last argument left a NUL
where the path ends: in the last place of the array, at its first `=`, or from its own end on. -/
theorem looked_up_iff (argv : List CString) (exe : CString) :
    ((appPath argv exe).isSome ↔ NamesFit argv ∧ exe.bytes.length < maxBufSize) ∧
    (∀ path, appPath argv exe = some path → exe.bytes <+: path.bytes) ∧
    (appPath argv exe = some exe ↔ NamesFit argv ∧ exe.bytes.length < maxBufSize ∧
      ∀ arg ∈ argv.getLast?, EndsAt arg exe.bytes.length) := by
  refine ⟨?_, fun path hpath => prefix_of_appPath hpath, ?_⟩
  · rcases readArguments_spec argv with ⟨hfit, s, hs, hsized, -⟩ | ⟨hno, hnone⟩
    · rw [appPath_of_read hs]
      rcases lt_or_ge exe.bytes.length maxBufSize with hlt | hle
      · have hput : s.buff.put exe.bytes = some (exe.bytes ++ s.buff.drop exe.bytes.length) := by
          rw [CharArray.put, if_pos (by rw [hsized.buff]; exact hlt.le)]
        -- the last byte of the array is still a NUL
        have hlast : (s.buff.drop exe.bytes.length)[maxBufSize - 1 - exe.bytes.length]? =
            some 0 := by
          rw [List.getElem?_drop, Nat.add_sub_cancel' (by omega), hsized.nul]
        have hmem : (0 : UInt8) ∈ exe.bytes ++ s.buff.drop exe.bytes.length :=
          List.mem_append_right _ (List.mem_of_getElem? hlast)
        rw [List.take_of_length_le hlt.le, hput, Option.bind_some, CharArray.text, if_pos hmem]
        simp [hfit, hlt]
      · rw [put_full hsized.buff hle]
        simp [not_lt.mpr hle]
    · rw [appPath, hnone]
      simp [hno]
  · rcases readArguments_spec argv with ⟨hfit, s, hs, hsized, hends⟩ | ⟨hno, hnone⟩
    · rw [appPath_of_read hs]
      rcases lt_or_ge exe.bytes.length maxBufSize with hlt | hle
      · rw [List.take_of_length_le hlt.le, CharArray.text_put, hends]
        simp only [hfit, true_and]
      · rw [put_full hsized.buff hle]
        simp [not_lt.mpr hle]
    · rw [appPath, hnone]
      simp [hno]

-- the arguments of the module in the configuration of PAM
example : appPath [.ofBytes (bytes "user_locale=.config/locale.conf"),
      .ofBytes (bytes "timeout=-1")] (.ofBytes (bytes "/bin/sudo")) =
        some (.ofBytes (bytes "/bin/sudo1")) ∧
    appPath [.ofBytes (bytes "user_locale=.config/locale.conf"),
      .ofBytes (bytes "timeout=-1")] (.ofBytes (bytes "/usr/bin/sudo")) =
        some (.ofBytes (bytes "/usr/bin/sudo")) := by decide +kernel

end loop

end LingmoAuthenticate.PamModule
