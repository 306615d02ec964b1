import LingmoAuthenticate.AuthClient.Limits
import LingmoAuthenticate.Lib.Calendar

/-!
# The prompts of the client library

After a failure a program asks the library what to tell the user. The library asks for the limits of
the user, and says how many tries are left, or that the factor is locked; of a password that is
locked it asks again, for the time. What C leaves undefined is `none`, and an inner `none` is a
return of `-1`.

* `Retry` is what a limit says of further tries, and `failText` the words for it.
* `daGetFailPrompt_eq`: with the retries, the prompt has the words for the limit that was
  replied.
-/

namespace LingmoAuthenticate.AuthClient

open Lib

/-! ## The lock -/

/-- Source: `auth-priv.h`, `MAX_BUFF_SIZE`. -/
def maxBuffSize : ℕ := 512

/-- `sprintf` to a buffer of so many bytes. -/
def sprintf (size : ℕ) (format : List UInt8) (args : List FormatArg) : Option (List UInt8) :=
  if (printf format args).length < size then some (printf format args) else none

/-- Source: `text.c`, `resolve_limit_time`. -/
def resolveLimitTime (zone now : ℤ) (limit : DaLimitInfo) : Option ℤ :=
  limit.unlockTime.map fun unlockTime => minutesTo zone now unlockTime

/-- What is written to the buffer, if the limit is locked; `gettext` translates a format.
Source: `text.c`, `get_limit_prompt`. -/
def getLimitPrompt (gettext : List UInt8 → List UInt8) (zone now : ℤ) (limit : DaLimitInfo) :
    Option (Option (List UInt8)) := do
  if ← limit.locked then
    let minutes ← resolveLimitTime zone now limit
    let format := if minutes > 1 then bytes "Please try again %d minutes later"
      else bytes "Please try again %d minute later"
    return some (← sprintf maxBuffSize (gettext format) [.int minutes])
  else return none

/-- The entry of a flag in what `GetLimits` replies; there is none if the call fails.
Source: `text.c`, `get_limit_info_priv`. -/
def repliedLimit (c : JsonC) (reply : Option (List UInt8)) (authFlag : BitVec 32) :
    Option (Option DaLimitInfo) :=
  match reply with
  | none => some none
  | some outLimits => getLimitInfoPriv c outLimits authFlag

/-- The prompt of a lock; `*is_lock` is set where there is one.
Source: `text.c`, `da_get_lock_info`. -/
def daGetLockInfo (c : JsonC) (gettext : List UInt8 → List UInt8) (zone now : ℤ)
    (reply : Option (List UInt8)) (auth_type : BitVec 32) : Option (Option (List UInt8)) := do
  match ← repliedLimit c reply auth_type with
  | none => return none
  | some spec_limit => getLimitPrompt gettext zone now spec_limit

/-! ## The retries -/

/-- What a limit says of further tries: that there is none, that the factor is locked, how many
chances are left, or that only one is. -/
inductive Retry where
  | unlimited
  | locked
  | chances (retry_cnt : ℤ)
  | lastChance
  deriving DecidableEq, Repr

/-- A difference of two `int`s, where it is one. -/
def subInt (a b : BitVec 32) : Option ℤ :=
  if -2 ^ 31 ≤ a.toInt - b.toInt ∧ a.toInt - b.toInt < 2 ^ 31 then some (a.toInt - b.toInt)
  else none

/-- Source: `text.c`, `da_get_fail_prompt`, what is read of `spec_limit` and the tests of it. -/
def DaLimitInfo.retry (spec_limit : DaLimitInfo) : Option Retry := do
  let locked ← spec_limit.locked
  let maxTries ← spec_limit.maxTries
  let retry_cnt ← subInt maxTries (← spec_limit.failNum)
  return if maxTries = 0 then .unlimited
    else if locked then .locked
    else if retry_cnt > 1 then .chances retry_cnt
    else .lastChance

/-! ## The prompt of a failure -/

/-- Source: `auth.h`, `DA_AUTH_FLAG`. -/
def authFlagPassword : BitVec 32 := 1

/-- Source: `text.c`, `type_to_tr`. -/
def typeToTr (gettext : List UInt8 → List UInt8) (authFlag : BitVec 32) : List UInt8 :=
  gettext (if authFlag = 2 then bytes "Fingerprint"
    else if authFlag = 4 then bytes "Face recognition"
    else if authFlag = 8 then bytes "ActiveDirectory"
    else if authFlag = 16 then bytes "PIN"
    else bytes "Unknown")

/-- Source: `text.c`, `is_input_type`. -/
def isInputType (authFlag : BitVec 32) : Bool :=
  authFlag = authFlagPassword || authFlag = 16 || authFlag = 8

/-- The format of a failure and its arguments; `limit_buff` is the prompt of the lock. -/
def failText (gettext : List UInt8 → List UInt8) (authFlag : BitVec 32) (limit_buff : List UInt8)
    (retry : Retry) : List UInt8 :=
  let type := FormatArg.str (typeToTr gettext authFlag)
  if authFlag = authFlagPassword then
    match retry with
    | .unlimited => printf (gettext (bytes "Password verification failed")) []
    | .locked => printf (gettext (bytes "Password locked, %s")) [.str limit_buff]
    | .chances n =>
        printf (gettext (bytes "Password verification failed, %d chances left")) [.int n]
    | .lastChance =>
        printf (gettext (bytes "Password verification failed, only one chance left")) []
  else
    match retry with
    | .unlimited => printf (gettext (bytes "%s verification failed")) [type]
    | .locked => printf (gettext (bytes "%s locked, use password please")) [type]
    | .chances n =>
        printf (gettext (bytes "%s verification failed, %d chances left")) [type, .int n]
    | .lastChance =>
        printf (gettext (bytes "%s verification failed, only one chance left")) [type]

/-- The text after what is already in the buffer; `snprintf` is given the size of all of it. -/
def snprintfAfter (before text : List UInt8) : Option (List UInt8) :=
  if before.length + (text.take (maxBuffSize - 1)).length < maxBuffSize then
    some (before ++ text.take (maxBuffSize - 1))
  else none

/-- The prompt; `reply` is what `GetLimits` replies, and `reply'` what it replies when the library
asks for the lock of a password. Source: `text.c`, `da_get_fail_prompt`, of a `proxy` that is not
null. -/
def daGetFailPrompt (c : JsonC) (gettext : List UInt8 → List UInt8) (is_tty : Bool)
    (zone now : ℤ) (reply reply' : Option (List UInt8)) (authFlag : BitVec 32)
    (with_retry_info : Bool) : Option (Option (List UInt8)) :=
  if isValidAuthFlag authFlag then do
    let before := if is_tty && isInputType authFlag then bytes "\n" else []
    if with_retry_info then
      match ← repliedLimit c reply authFlag with
      | none => return none
      | some spec_limit =>
          let retry ← spec_limit.retry
          if retry = .locked ∧ authFlag = authFlagPassword then
            match ← daGetLockInfo c gettext zone now reply' authFlag with
            | none => return none
            | some limit_buff =>
                return some (← snprintfAfter before (failText gettext authFlag limit_buff retry))
          else return some (← snprintfAfter before (failText gettext authFlag [] retry))
    else return some (← snprintfAfter before (failText gettext authFlag [] .unlimited))
  else return none

/-- What is written after what is in the buffer. -/
theorem snprintfAfter_eq {before text prompt : List UInt8}
    (h : ((snprintfAfter before text).bind fun a => some (some a)) = some (some prompt)) :
    prompt = before ++ text.take (maxBuffSize - 1) := by
  obtain ⟨a, ha, heq⟩ := Option.bind_eq_some_iff.mp h
  unfold snprintfAfter at ha
  split_ifs at ha
  cases ha
  cases heq
  rfl

/-- **The words are those of the limit that was replied.** -/
theorem daGetFailPrompt_eq {c : JsonC} {gettext : List UInt8 → List UInt8} {is_tty : Bool}
    {zone now : ℤ} {reply reply' : Option (List UInt8)} {authFlag : BitVec 32}
    {spec_limit : DaLimitInfo} {retry : Retry} {prompt : List UInt8}
    (hvalid : isValidAuthFlag authFlag = true)
    (hlimit : repliedLimit c reply authFlag = some (some spec_limit))
    (hretry : spec_limit.retry = some retry)
    (h : daGetFailPrompt c gettext is_tty zone now reply reply' authFlag true =
      some (some prompt)) :
    ∃ before limit_buff, (before = [] ∨ before = bytes "\n") ∧
      prompt = before ++ (failText gettext authFlag limit_buff retry).take (maxBuffSize - 1) := by
  have hbefore : (if is_tty && isInputType authFlag then bytes "\n" else []) = [] ∨
      (if is_tty && isInputType authFlag then bytes "\n" else []) = bytes "\n" := by
    split_ifs
    · exact .inr rfl
    · exact .inl rfl
  unfold daGetFailPrompt at h
  rw [if_pos hvalid] at h
  simp only [if_true, hlimit, hretry, Option.bind_eq_bind, Option.bind_some, Option.pure_def] at h
  generalize (if is_tty && isInputType authFlag then bytes "\n" else []) = before at h hbefore
  split_ifs at h
  · -- the time of the lock is asked for
    obtain ⟨lock, -, h⟩ := Option.bind_eq_some_iff.mp h
    cases lock with
    | none => cases h
    | some limit_buff => exact ⟨before, limit_buff, hbefore, snprintfAfter_eq h⟩
  · exact ⟨before, [], hbefore, snprintfAfter_eq h⟩

end LingmoAuthenticate.AuthClient
