import LingmoAuthenticate.Lib.Calendar
import LingmoAuthenticate.Lib.Path
import LingmoAuthenticate.PamModule.Common

/-!
# The prompt of a limit

What the PAM module tells a user of a limit that is locked: the minutes until `unlockTime`, by the
clock and in the zone of its own process. `mktime` is called with `tm_isdst = 0`, and so `zone` is
the offset of that zone without summer time.
-/

namespace LingmoAuthenticate.PamModule

open Lib

/-- Source: `limit.c`, `resolve_limit_time`. -/
def resolveLimitTime (zone now : ℤ) (limit : Limit) : ℤ := minutesTo zone now limit.unlockTime

/-- `PAM_MAXTRIES`. -/
def pamMaxtries : ℤ := 11

/-- What is written to the buffer, if anything, and what is returned; `gettext` translates a format.
Source: `limit.c`, `get_limit_prompt`. -/
def getLimitPrompt (gettext : List UInt8 → List UInt8) (zone now : ℤ) (limit : Limit) :
    Option (List UInt8) × ℤ :=
  if limit.locked then
    let minutes := resolveLimitTime zone now limit
    let format := if minutes > 1 then bytes "Please try again %d minutes later"
      else bytes "Please try again %d minute later"
    (some ((printf (gettext format) [.int minutes]).take (maxBufSize - 1)), pamMaxtries)
  else (none, pamSuccess)

example : getLimitPrompt id 28800 1700000000
    ⟨5, 5, true, bytes "2023-11-15T06:17:20.5+08:00"⟩ =
      (some (bytes "Please try again 4 minutes later"), pamMaxtries) := by decide

end LingmoAuthenticate.PamModule
