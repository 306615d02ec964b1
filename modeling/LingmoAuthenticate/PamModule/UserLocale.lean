import LingmoAuthenticate.Lib.CString
import LingmoAuthenticate.PamModule.LimitsInfo

/-!
# The locale of a user

With the argument `user_locale`, the module reads a file in the home directory of the user, and sets
a variable of the environment for each of its lines. The path of the file and its lines go into one
array, which has the size of the path; `fgets` is told that it has `MAX_BUF_SIZE` bytes.

* `loadUserLocale`: the variables that are set, in order.
* `load_user_locale_defined_iff`: nothing is written past the array exactly if it has that size, or
  each line of the file is shorter than it.
-/

namespace LingmoAuthenticate.PamModule

open Lib

/-- `PATH_MAX`. -/
def pathMax : ℕ := 4096

/-- The size of the array: that of the path. -/
def localePathLen (home locale_path : CString) : ℕ :=
  home.bytes.length + locale_path.bytes.length + 2

/-- The variable of a line, if it has a name. -/
def localeVariable (line : List UInt8) : Option (List UInt8 × List UInt8) :=
  let buff := (CString.ofBytes line).bytes.takeWhile (· ≠ 10)
  match buff.idxOf? 61 with
  | none | some 0 => none
  | some pos => some (buff.take pos, buff.drop (pos + 1))

/-- What `fgets` writes, with a NUL, to an array of so many bytes. -/
def fgetsTo (size : ℕ) (chunk : List UInt8) : Option (List UInt8) :=
  if chunk.length < size then some chunk else none

/-- The calls of `setenv`. `home` is the directory of the user, if there is a user, and `file` what
is read of the file, if there is a file that can be opened. Source: `utils.c`,
`load_user_locale`. -/
def loadUserLocale (home : Option CString) (locale_path : CString) (file : Option (List UInt8)) :
    Option (List (List UInt8 × List UInt8)) :=
  match home, file with
  | some home, some file =>
      let path_len := localePathLen home locale_path
      if path_len > pathMax then some []
      else do
        let chunks ← (readLines (maxBufSize - 1) (file.length + 1) file).mapM (fgetsTo path_len)
        return chunks.filterMap localeVariable
  | _, _ => some []

section reading

variable {home locale_path : CString} {file : List UInt8} {size : ℕ}

/-- Whatever is read is written as it is, or does not fit. -/
theorem mapM_fgetsTo (chunks : List (List UInt8)) :
    chunks.mapM (fgetsTo size) =
      if ∀ chunk ∈ chunks, chunk.length < size then some chunks else none := by
  induction chunks with
  | nil => simp
  | cons chunk chunks ih =>
      rw [List.mapM_cons, ih, fgetsTo]
      simp only [List.forall_mem_cons]
      by_cases hchunk : chunk.length < size
      · by_cases hchunks : ∀ chunk ∈ chunks, chunk.length < size
        · rw [if_pos hchunk, if_pos hchunks, if_pos ⟨hchunk, hchunks⟩]
          rfl
        · rw [if_pos hchunk, if_neg hchunks, if_neg fun h => hchunks h.2]
          rfl
      · have hno : ¬ (chunk.length < size ∧ ∀ chunk ∈ chunks, chunk.length < size) :=
          fun h => hchunk h.1
        rw [if_neg hchunk, if_neg hno]
        rfl

/-- The loop, in an array that is not too long to be there. -/
theorem loadUserLocale_eq (h : localePathLen home locale_path ≤ pathMax) :
    loadUserLocale (some home) locale_path (some file) =
      ((readLines (maxBufSize - 1) (file.length + 1) file).mapM
        (fgetsTo (localePathLen home locale_path))).map (List.filterMap localeVariable) := by
  rw [loadUserLocale, if_neg (not_lt.mpr h)]
  cases (readLines (maxBufSize - 1) (file.length + 1) file).mapM
      (fgetsTo (localePathLen home locale_path)) with
  | none => rfl
  | some chunks => rfl

end reading

/-- **The file of the locale is read into its array**: for every home directory, path and file, no
line is written past the array exactly if the path is too long to be read, or the array has the
`MAX_BUF_SIZE` bytes that `fgets` is told, or each line of the file, with its newline, is shorter
than the array. -/
theorem load_user_locale_defined_iff (home locale_path : CString) (file : List UInt8) :
    (loadUserLocale (some home) locale_path (some file)).isSome ↔
      pathMax < localePathLen home locale_path ∨
        maxBufSize ≤ localePathLen home locale_path ∨
          ∀ line ∈ lines file, line.length < localePathLen home locale_path := by
  rcases lt_or_ge pathMax (localePathLen home locale_path) with hlong | h
  · rw [loadUserLocale, if_pos hlong]
    simp [hlong]
  · have hlimit : 0 < maxBufSize - 1 := by decide
    have hfits : (∀ chunk ∈ readLines (maxBufSize - 1) (file.length + 1) file,
        chunk.length < localePathLen home locale_path) ↔ _ :=
      readLines_fit hlimit (Nat.lt_succ_self _)
    have hsize : maxBufSize - 1 < localePathLen home locale_path ↔
        maxBufSize ≤ localePathLen home locale_path := by
      have hpos : maxBufSize = 256 := rfl
      omega
    rw [hsize] at hfits
    rw [loadUserLocale_eq h, Option.isSome_map, mapM_fgetsTo, ← hfits]
    simp [not_lt.mpr h]

-- a line of thirty bytes, in an array of as many
example : loadUserLocale (some (.ofBytes (bytes "/home/uos")))
      (.ofBytes (bytes ".config/locale.conf"))
      (some (bytes "LANG=zh_CN.UTF-8\nLANGUAGE=zh_CN\n")) =
        some [(bytes "LANG", bytes "zh_CN.UTF-8"), (bytes "LANGUAGE", bytes "zh_CN")] ∧
    loadUserLocale (some (.ofBytes (bytes "/home/uos")))
      (.ofBytes (bytes ".config/locale.conf"))
      (some (bytes "LC_IDENTIFICATION=zh_CN.UTF-8\n")) = none := by decide +kernel

end LingmoAuthenticate.PamModule
