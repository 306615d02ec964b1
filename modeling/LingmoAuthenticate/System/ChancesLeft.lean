import LingmoAuthenticate.AuthClient.FailPrompt
import LingmoAuthenticate.Limits.Throttled
import LingmoAuthenticate.System.LimitsShown

/-!
# The chances that a user is told of

After a failure the client library reads the limit of the factor from `GetLimits`, and tells the
user how many chances are left, that it is the last one, or that the factor is locked.

* `repliedLimit_message`: what the library has of a limit is what the limit answers.
* `Chances n`: from a table on, fewer than `n` failures of a factor leave it allowed, and the last
  of `n` failures locks it.
* `chances_left`: the words are right for every table that calls lead to.
-/

namespace LingmoAuthenticate.System.ChancesLeft

open Lib JsonText AuthCommon Limits AuthClient LimitsShown

/-! ## Failures in a row -/

section failures

variable {l : Limits.Limit} {now : ℤ}

/-- A failure of a limit that is not locked is one more. -/
theorem fail_numFailures (hm : 0 < l.maxTries)
    (hopen : l.numFailures < l.maxTries ∨ l.dynamicLimit = true) :
    (l.fail now).numFailures = l.numFailures + 1 := by
  have hkeep : (l.tryReset now).numFailures = l.numFailures := by
    rcases hopen with hlt | hd
    · rw [Limits.Limit.tryReset_of_lt hlt]
    · rcases Limits.Limit.tryReset_eq_or l now with heq | heq
      · rw [heq]
      · rw [heq, Limits.Limit.reset_numFailures, if_pos hd]
  unfold Limits.Limit.fail
  rw [if_neg (by omega), ← hkeep]
  dsimp only
  split_ifs
  · rfl
  · rfl

/-- Failures that stay below the tries add up. -/
theorem fails_numFailures (hm : 0 < l.maxTries) (fails : List ℤ)
    (hlt : l.numFailures + fails.length ≤ l.maxTries) :
    (fails.foldl Limits.Limit.fail l).numFailures = l.numFailures + fails.length := by
  induction fails generalizing l with
  | nil => simp
  | cons now fails ih =>
      rw [List.length_cons] at hlt ⊢
      push_cast at hlt ⊢
      have hmax : (l.fail now).maxTries = l.maxTries := (Limits.Limit.fail_sameConfig l now).2.2.1
      have hone : (l.fail now).numFailures = l.numFailures + 1 :=
        fail_numFailures hm (.inl (by omega))
      rw [List.foldl_cons, ih (hmax ▸ hm) (by rw [hone, hmax]; omega), hone]
      omega

theorem fails_sameConfig (l : Limits.Limit) (fails : List ℤ) :
    Limits.Limit.SameConfig l (fails.foldl Limits.Limit.fail l) := by
  induction fails generalizing l with
  | nil => exact .refl l
  | cons now fails ih => exact (Limits.Limit.fail_sameConfig l now).trans (ih (l.fail now))

/-- A limit that allows: it is below its tries, or its lock is over. -/
def Open (l : Limits.Limit) : Prop :=
  l.numFailures < l.maxTries ∨ l.dynamicLimit = true ∧ l.Expired

/-- The failures up to the next lock; after a lock that is over, the next one locks again. -/
def chances (l : Limits.Limit) : ℤ := max 1 (l.maxTries - l.numFailures)

/-- What a question leaves that is answered with yes. -/
theorem open_of_allowed {l' : Limits.Limit} (hin : l.InRange) {unlock : ℤ}
    (ha : l.allow now = some ((true, unlock), l')) : Open l' := by
  have hm := hin.maxTries_pos
  obtain ⟨l₁, hrefresh, hl', hanswer⟩ := (Limits.Limit.allow_eq_some (by omega)).mp ha
  have hmax : l₁.maxTries = l.maxTries := (Limits.Limit.refresh_sameConfig hrefresh).2.2.1
  by_cases hn : l.numFailures < l.maxTries
  · obtain ⟨hsame, -⟩ := Limits.Limit.refresh_same hrefresh
    rw [hl', Limits.Limit.tryReset_of_lt (by omega)]
    exact .inl (by omega)
  · obtain rfl := Option.some.inj (hrefresh.symm.trans (hin.refresh_of_failures (not_lt.mp hn)))
    rcases Limits.Limit.tryReset_eq_or (l.setUnlockSecs l.lockSecs) now with heq | heq
    · rw [hl', heq, Limits.Limit.answer_of_le (l := l.setUnlockSecs l.lockSecs) (not_lt.mp hn)
        hin.lockSecs_ne_zero] at hanswer
      cases hanswer
    · have hexpired : l'.Expired := by
        rw [hl', heq]
        exact Limits.Limit.reset_expired (l := l.setUnlockSecs l.lockSecs) (not_lt.mp hn)
      cases hd : l'.dynamicLimit
      · have hzero : l'.numFailures = 0 := by simpa [Limits.Limit.Expired, hd] using hexpired
        have hsame := (Limits.Limit.allow_sameConfig ha).2.2.1
        exact .inl (by omega)
      · exact .inr ⟨hd, hexpired⟩

/-- An open limit allows. -/
theorem allow_of_open (hin : l.InRange) (h : Open l) (hnow : Limits.Limit.WallClock now) :
    ∃ l', l.allow now = some ((true, Time.zero), l') := by
  rcases h with hlt | ⟨-, hexpired⟩
  · exact hin.lockoutLaw.allowed_below hlt now
  · obtain ⟨l', hallow, -⟩ := hin.allow_expired hexpired hnow
    exact ⟨l', hallow⟩

/-- **Fewer failures than the chances** leave a limit open. -/
theorem open_of_fails (hm : 0 < l.maxTries) (h : Open l) {fails : List ℤ}
    (hlt : fails.length < chances l) : Open (fails.foldl Limits.Limit.fail l) := by
  by_cases hn : l.numFailures < l.maxTries
  · have hmax := (fails_sameConfig l fails).2.2.1
    unfold chances at hlt
    have hsum := fails_numFailures hm fails (by omega)
    exact .inl (by omega)
  · have hone : chances l = 1 := by
      unfold chances
      omega
    have hnil : fails = [] := List.length_eq_zero_iff.mp (by omega)
    rw [hnil]
    exact h

/-- **As many failures as the chances** lock a limit, with the last one. -/
theorem locked_of_fails (hm : 0 < l.maxTries) (h : Open l) {fails : List ℤ} {last : ℤ}
    (hlast : (fails.length : ℤ) + 1 = chances l) :
    ((fails ++ [last]).foldl Limits.Limit.fail l).Locked last := by
  rw [List.foldl_append, List.foldl_cons, List.foldl_nil]
  have hconfig := fails_sameConfig l fails
  have hbefore : Open (fails.foldl Limits.Limit.fail l) := open_of_fails hm h (by omega)
  have hm' : 0 < (fails.foldl Limits.Limit.fail l).maxTries := hconfig.2.2.1 ▸ hm
  have hone : ((fails.foldl Limits.Limit.fail l).fail last).numFailures =
      (fails.foldl Limits.Limit.fail l).numFailures + 1 :=
    fail_numFailures hm' (hbefore.imp id And.left)
  have hmax := (Limits.Limit.fail_sameConfig (fails.foldl Limits.Limit.fail l) last).2.2.1
  refine Limits.Limit.fail_locked hm' ?_
  rw [hmax, hone]
  by_cases hn : l.numFailures < l.maxTries
  · unfold chances at hlast
    have hsum := fails_numFailures hm fails (by omega)
    have hsame := hconfig.2.2.1
    omega
  · have hnil : fails = [] := by
      unfold chances at hlast
      exact List.length_eq_zero_iff.mp (by omega)
    rw [hnil, List.foldl_nil]
    omega

end failures

/-! ## What the library reads -/

/-- The flag of a type. -/
def flagOfType (t : AuthType) : BitVec 32 := BitVec.ofNat 32 (authTypeToFlag t)

/-- An entry of the library has what a limit answers: whether it is locked, and the tries and
failures, cut to 32 bits. -/
structure Replied (l' : Limits.Limit) (allowed : Bool) (info : DaLimitInfo) : Prop where
  locked : info.locked = some !allowed
  maxTries : info.maxTries = some (int32 l'.maxTries)
  failNum : info.failNum = some (int32 l'.numFailures)

section library

variable {c : JsonC} {order : StatesOrder} {m : LimitTable} {offset : AuthType → ℤ} {k : UserKey}
  {t : AuthType} {now : ℤ} {text : List Char} {mss : List Members} {l : Limits.Limit}

/-- A type of the library has a bit. -/
theorem flagBit_of_valid (ht : isValidAuthFlag (flagOfType t) = true) :
    ∃ i, t.flagBit? = some i ∧ i < 7 := by
  cases t with
  | custom => exact absurd ht (by decide)
  | other name =>
      rw [show flagOfType (.other name) = 0 from rfl] at ht
      exact absurd ht (by decide)
  | _ => exact ⟨_, rfl, by decide⟩

theorem int32_flag (t : AuthType) : int32 (authTypeToFlag t) = flagOfType t := by
  cases t with
  | other name => rfl
  | _ => decide

/-- An object of the message has all that the library asks for. -/
theorem complete_members (le : LimitForExport) (u : List Char) :
    Complete (objectJson (members le u)) := by
  refine ⟨?_, ?_, ?_⟩
  · intro key hkey
    simp only [limitKeys, List.mem_cons, List.not_mem_nil, or_false] at hkey
    rcases hkey with rfl | rfl | rfl | rfl | rfl | rfl | rfl
    all_goals rfl
  · have hvalue : (objectJson (members le u)).value "type" =
        .string (le.type.text.toList.map byte) := rfl
    rw [hvalue]
    exact Json.noConfusion
  · have hvalue : (objectJson (members le u)).value "unlockTime" = .string (u.map byte) := rfl
    rw [hvalue]
    exact Json.noConfusion

/-- **What the library has of a limit** is what the limit answers. -/
theorem repliedLimit_message (hc : c.Reads) (hwf : m.WellFormed)
    (hmessage : m.message order offset k now = some (some text))
    (ht : isValidAuthFlag (flagOfType t) = true) (hl : m.limit k t = some l) :
    ∃ r l' info, l.allow now = some (r, l') ∧
      repliedLimit c (some (text.map byte)) (flagOfType t) = some (some info) ∧
      Replied l' r.1 info := by
  obtain ⟨mss, hmss, rfl⟩ := message_members hmessage
  have hparse := hc.parse mss (plainArray_entries hwf hmss)
  have hcomplete : ∀ j ∈ mss.map objectJson, Complete j := by
    intro j hj
    obtain ⟨ms, hms, rfl⟩ := List.mem_map.mp hj
    obtain ⟨e, he, hentry⟩ := exists_of_mem_right hmss hms
    obtain ⟨l, r, l', u, -, -, -, rfl, -⟩ := entry_spec hwf he hentry
    exact complete_members _ u
  have hwritten := dealLoop_written (c := c) hcomplete
  have hreply : repliedLimit c (some ((arrayText mss).map byte)) (flagOfType t) =
      some ((dealLoop c (mss.map objectJson)
        (List.replicate (mss.map objectJson).length .fresh)).2.find?
          fun limit => limit.flag = some (flagOfType t)) := by
    rw [repliedLimit, getLimitInfoPriv, limitJsonDeal, hparse]
    exact daGetAuthLimitInfo_eq hwritten ht
  generalize (dealLoop c (mss.map objectJson)
    (List.replicate (mss.map objectJson).length .fresh)).2 = dli at hwritten hreply
  -- there is an entry of the type, and any is that of the limit
  obtain ⟨i, hi, -⟩ := flagBit_of_valid ht
  have he : ⟨t, some l⟩ ∈ entriesOf order m k := mem_entriesOf_iff.mpr hl
  have hflag : ∀ {e ms info}, e ∈ entriesOf order m k → EntryMembers offset now e ms →
      WrittenFrom c (objectJson ms) info → info.flag = some (flagOfType e.1) := by
    intro e ms info he hentry hinfo
    obtain ⟨l, r, l', u, -, -, -, rfl, -, hflag, -⟩ := entry_spec hwf he hentry
    have hread : PamModule.flagOf c (objectJson (members (l'.forExport r) u)) =
        int32 (l'.forExport r).flag := flagOf_members hc
    rw [hflag, int32_flag] at hread
    rw [hinfo.flag]
    exact congrArg some hread
  obtain ⟨ms, hms, hentry⟩ := exists_of_mem_right hmss.flip he
  obtain ⟨info, hinfo, hfrom⟩ := exists_of_mem_right hwritten.flip (List.mem_map_of_mem hms)
  have hsome : (dli.find? fun limit => limit.flag = some (flagOfType t)).isSome :=
    List.find?_isSome.mpr ⟨info, hinfo, decide_eq_true (hflag he hentry hfrom)⟩
  obtain ⟨found, hfound⟩ := Option.isSome_iff_exists.mp hsome
  obtain ⟨j, hj, hfrom'⟩ := exists_of_mem_right hwritten (List.mem_of_find?_eq_some hfound)
  obtain ⟨ms', hms', rfl⟩ := List.mem_map.mp hj
  obtain ⟨e, he', hentry'⟩ := exists_of_mem_right hmss hms'
  have hsame : flagOfType e.1 = flagOfType t := by
    have hread := List.find?_some hfound
    rw [decide_eq_true_iff, hflag he' hentry' hfrom', Option.some.injEq] at hread
    exact hread
  obtain ⟨l₁, r, l', u, hl₁, hallow, -, rfl, -⟩ := entry_spec hwf he' hentry'
  have htype : e.1 = t := by
    have hlow : PamModule.IsLowest (int32 (authTypeToFlag e.1)) i := by
      rw [int32_flag, hsame, ← int32_flag]
      exact isLowest_flag.mpr hi
    exact AuthType.flagBit?_inj (isLowest_flag.mp hlow) hi
  rw [htype] at hl₁
  obtain rfl : l₁ = l := Option.some.inj (hl₁.symm.trans hl)
  refine ⟨r, l', found, hallow, hreply.trans (congrArg some hfound), ?_, ?_, ?_⟩
  · exact hfrom'.locked.trans (congrArg some (hc.getBoolean _))
  · exact hfrom'.maxTries.trans (congrArg some (hc.getInt _))
  · exact hfrom'.failNum.trans (congrArg some (hc.getInt _))

/-- The integers of a limit, in 32 bits. -/
theorem toInt_int32 {i : ℤ} (h₀ : 0 ≤ i) : (int32 i).toInt = min i (2 ^ 31 - 1) := by
  unfold int32
  rw [BitVec.toInt_ofInt, Int.bmod_eq_of_le (by omega) (by omega)]
  omega

/-- **What the library says of a limit** that is not locked: the chances of the limit. -/
theorem retry_of_replied {l' : Limits.Limit} {allowed : Bool} {info : DaLimitInfo}
    (h : Replied l' allowed info) (hmax : 0 < l'.maxTries) (hlt : l'.maxTries < 2 ^ 31)
    (hn : 0 ≤ l'.numFailures) :
    info.retry = some (if allowed = false then .locked
      else if 1 < chances l' then .chances (chances l') else .lastChance) := by
  have hm := toInt_int32 hmax.le
  have hf := toInt_int32 hn
  have hcnt : subInt (int32 l'.maxTries) (int32 l'.numFailures) =
      some (l'.maxTries - min l'.numFailures (2 ^ 31 - 1)) := by
    rw [subInt, hm, hf, if_pos (by omega)]
    congr 1
    omega
  have hzero : int32 l'.maxTries ≠ 0 := by
    intro h0
    have hint : (0 : BitVec 32).toInt = 0 := by decide
    rw [h0, hint] at hm
    omega
  rw [DaLimitInfo.retry, h.locked, h.maxTries, h.failNum]
  simp only [Option.bind_eq_bind, Option.bind_some, hcnt, hzero, if_false, Option.pure_def,
    Option.some.injEq, Bool.not_eq_eq_eq_not, Bool.not_true]
  unfold chances
  split_ifs
  · rfl
  · congr 1
    omega
  · omega
  · omega
  · rfl

end library

/-! ## The words are right -/

/-- **So many chances are left** of a factor: whatever is called about other users and factors, and
whenever the failures come, fewer of them leave the factor allowed, and with the last of so many it
is refused, for a second at least. -/
def Chances (config : List (Option LimitConfig)) (order : StatesOrder) (m : LimitTable)
    (k : UserKey) (t : AuthType) (n : ℤ) : Prop :=
  ∀ (later : List (ℤ × LimitsCall)) (answers : List LimitsAnswer) (m' : LimitTable)
    (fails : List ℤ), run (LimitTable.call config order) m later = some (m', answers) →
    later.filterMap (concerning k t) = fails.map (fun now => (now, .fail)) →
    (∀ now ∈ fails, Limits.Limit.WallClock now) →
      (fails.length < n → ∀ now, Limits.Limit.WallClock now →
        ∃ m'', m'.allow k t now = some (some (true, Time.zero), m'')) ∧
      (fails.length = n → ∀ last, fails.getLast? = some last →
        ∃ unlock, last + second ≤ unlock ∧ ∀ now, Limits.Limit.WallClock now → now ≤ unlock →
          ∃ m'', m'.allow k t now = some (some (false, unlock), m''))

section words

variable {config : List (Option LimitConfig)} {order order' : StatesOrder} {m m' : LimitTable}
  {offset : AuthType → ℤ} {k : UserKey} {t : AuthType} {now : ℤ} {l : Limits.Limit}

/-- Failures of an entry. -/
theorem entry_fails {later : List (ℤ × LimitsCall)} {answers : List LimitsAnswer}
    (hm : m.Made config) (hentry : m.entry k t = some (some l))
    (hr : run (LimitTable.call config order) m later = some (m', answers)) {fails : List ℤ}
    (hfails : later.filterMap (concerning k t) = fails.map fun now => (now, .fail)) :
    m'.entry k t = some (some (fails.foldl Limits.Limit.fail l)) := by
  have hrun := run_onEntry (k := k) (t := t) hm hr
  rw [hfails, hentry] at hrun
  have hsteps : ∀ (fails : List ℤ) (l : Limits.Limit), ∃ obs, run (Entry.step config t)
      (some (some l)) (fails.map fun now => (now, .fail)) =
        some (some (some (fails.foldl Limits.Limit.fail l)), obs) := by
    intro fails
    induction fails with
    | nil => exact fun l => ⟨[], rfl⟩
    | cons now fails ih =>
        intro l
        obtain ⟨obs, hobs⟩ := ih (l.fail now)
        exact ⟨_, run_cons_eq_some.mpr ⟨_, _, _, rfl, hobs, rfl⟩⟩
  obtain ⟨obs, hobs⟩ := hsteps fails l
  rw [hobs, Option.some.injEq, Prod.mk.injEq] at hrun
  exact hrun.1.symm

/-- **The chances of an open limit.** -/
theorem chances_of_open (hm : m.Made config) (hin : l.InRange)
    (hends : l.dynamicLimit = false → 0 < l.unlockSecs) (hopen : Open l)
    (hentry : m.entry k t = some (some l)) : Chances config order m k t (chances l) := by
  intro later answers m' fails hr hfails hwall
  have hentry' := entry_fails hm hentry hr hfails
  have hconfig := fails_sameConfig l fails
  have hin' : (fails.foldl Limits.Limit.fail l).InRange := hin.congr hconfig
  constructor
  · intro hlt now hnow
    obtain ⟨l', hallow⟩ := allow_of_open hin' (open_of_fails hin.maxTries_pos hopen hlt) hnow
    exact allow_of_entry hentry' hallow
  · intro hlen last hlast
    obtain ⟨before, rfl⟩ := List.getLast?_eq_some_iff.mp hlast
    rw [List.length_append, List.length_singleton] at hlen
    push_cast at hlen
    have hlocked : ((before ++ [last]).foldl Limits.Limit.fail l).Locked last :=
      locked_of_fails hin.maxTries_pos hopen hlen
    have hpos : 0 < ((before ++ [last]).foldl Limits.Limit.fail l).lockSecs := by
      cases hd : ((before ++ [last]).foldl Limits.Limit.fail l).dynamicLimit
      · obtain ⟨-, -, -, hdyn, -, hsame⟩ := hconfig
        have hstatic : l.dynamicLimit = false := hdyn.symm.trans hd
        rw [Limits.Limit.lockSecs, hd, hsame hstatic]
        exact hends hstatic
      · exact zero_lt_one.trans_le (hin'.lockSecs_dynamic hd).1
    refine ⟨last + second * ((before ++ [last]).foldl Limits.Limit.fail l).lockSecs, ?_, ?_⟩
    · unfold second
      omega
    · intro now hnow hle
      exact allow_of_entry hentry' (hin'.allow_locked hlocked
        (hwall last (List.mem_append_right _ List.mem_cons_self)) hnow hpos hle)

/-- A limit of a table whose counters are counts. -/
theorem counted_of_run (hconfig : none ∉ config) {calls : List (ℤ × LimitsCall)}
    {answers : List LimitsAnswer}
    (hr : run (LimitTable.call config order) ∅ calls = some (m, answers))
    (hcounts : Along (LimitTable.call config order) Counting ∅ calls)
    (hl : m.limit k t = some l) : (configured config t).Counted l := by
  obtain ⟨base, hbase⟩ := Option.isSome_iff_exists.mp (newUserLimits_isSome hconfig)
  have hfrom : m.From Limits.Limit.Counted base :=
    run_invariant (I := fun m => m.From Limits.Limit.Counted base)
      (fun _ _ _ _ h hcount hcall =>
        call_from kept_counted hbase (rel_counted hbase) h hcount.callKeeps hcall)
      (fun k ul hul => by cases hul) hcounts hr
  exact limit_from hfrom hbase hl

/-- **The chances that are left are told right.** Take a factor with a limit that locks for a time,
in a table that any calls lead to, as long as its counters count. What the library reads in the
text of `GetLimits` is locked only if the factor is refused; otherwise the chances of which it tells
are those after which the factor is refused, and before which it is not. And the prompt has the
words for what it has read. -/
theorem chances_left {c : JsonC} (hc : c.Reads) (hconfig : none ∉ config)
    (hrange : (configured config t).InRange)
    (hends : (configured config t).dynamicLimit = false → 0 < (configured config t).unlockSecs)
    (hmax : (configured config t).maxTries < 2 ^ 31)
    {calls : List (ℤ × LimitsCall)} {answers : List LimitsAnswer}
    (hr : run (LimitTable.call config order) ∅ calls = some (m, answers))
    (hcounts : Along (LimitTable.call config order) Counting ∅ calls) {text : List Char}
    (hmessage : m.message order' offset k now = some (some text))
    (ht : isValidAuthFlag (flagOfType t) = true) (hl : m.limit k t = some l)
    {les : List LimitForExport} (hget : m.getLimits order' k now = some (les, m')) :
    ∃ info retry, repliedLimit c (some (text.map byte)) (flagOfType t) = some (some info) ∧
      info.retry = some retry ∧
      (match retry with
      | .unlimited => False
      | .locked => ∃ unlock l', l.allow now = some ((false, unlock), l')
      | .chances n => Chances config order m' k t n
      | .lastChance => Chances config order m' k t 1) ∧
      ∀ gettext is_tty zone now' reply' prompt,
        daGetFailPrompt c gettext is_tty zone now' (some (text.map byte)) reply' (flagOfType t)
          true = some (some prompt) →
        ∃ before limit_buff, (before = [] ∨ before = bytes "\n") ∧ prompt =
          before ++ (failText gettext (flagOfType t) limit_buff retry).take (maxBuffSize - 1) := by
  obtain ⟨base, hbase⟩ := Option.isSome_iff_exists.mp (newUserLimits_isSome hconfig)
  have hmade : m.Made config := run_invariant_of_step (fun _ _ _ _ h hs => h.call hs)
    LimitTable.made_empty hr
  have hwf : m.WellFormed := hmade.wellFormed
  have hcounted : (configured config t).Counted l := counted_of_run hconfig hr hcounts hl
  obtain ⟨⟨allowed, unlock⟩, l', info, hallow, hreply, hinfo⟩ :=
    repliedLimit_message hc hwf hmessage ht hl
  have hcounted' := hcounted.allow hallow
  have hin' : l'.InRange := hrange.congr hcounted'.config
  have hretry := retry_of_replied hinfo hin'.maxTries_pos
    (by rw [hcounted'.config.2.2.1]; exact hmax) hcounted'.nonneg
  refine ⟨info, _, hreply, hretry, ?_, ?_⟩
  rotate_left
  · intro gettext is_tty zone now' reply' prompt hprompt
    exact daGetFailPrompt_eq ht hreply hretry hprompt
  cases allowed with
  | false =>
      rw [if_pos rfl]
      exact ⟨unlock, l', hallow⟩
  | true =>
      have hopen : Open l' := open_of_allowed (hrange.congr hcounted.config) hallow
      have hmade' : m'.Made config := by
        have hcall : m.call config order' (now, .getLimits k) = some (m', .limits les) := by
          rw [LimitTable.call, hget]
          rfl
        exact hmade.call hcall
      have hends' : l'.dynamicLimit = false → 0 < l'.unlockSecs := by
        obtain ⟨-, -, -, hdyn, -, hsame⟩ := hcounted'.config
        intro hd
        have hstatic : (configured config t).dynamicLimit = false := hdyn.symm.trans hd
        rw [hsame hstatic]
        exact hends hstatic
      have hchances : Chances config order m' k t (chances l') :=
        chances_of_open hmade' hin' hends' hopen (limit_getLimits hwf hget hl hallow)
      rw [if_neg (Ne.symm Bool.false_ne_true)]
      split_ifs with hmany
      · exact hchances
      · have hone : chances l' = 1 := by
          unfold chances at hmany ⊢
          omega
        rw [hone] at hchances
        exact hchances

/-- A password with three tries, which locks for three minutes. -/
def threeTries : List (Option LimitConfig) := [some ⟨.password, 180, 3, false, []⟩]

/-- A password that has failed once before the daemon was started. -/
def loadOnce : List (ℤ × LimitsCall) :=
  [(0, .table (.initLimitsByUsername (.Local, "uos"))),
    (0, .loadStates (.Local, "uos") [⟨.password, 1, Time.zero⟩])]

/-- What the library says of it. -/
theorem chances_left_load_once :
    ∃ m answers text les m' info retry,
      run (LimitTable.call threeTries .listed) ∅ loadOnce = some (m, answers) ∧
      m.message .listed (fun _ => 0) (.Local, "uos") 0 = some (some text) ∧
      m.getLimits .listed (.Local, "uos") 0 = some (les, m') ∧
      repliedLimit .plain (some (text.map byte)) authFlagPassword = some (some info) ∧
      info.retry = some retry ∧
      match retry with
      | .unlimited => False
      | .locked => True
      | .chances n => Chances threeTries .listed m' (.Local, "uos") .password n
      | .lastChance => Chances threeTries .listed m' (.Local, "uos") .password 1 := by
  have hmessage : ((run (LimitTable.call threeTries .listed) ∅ loadOnce).bind fun r =>
      (r.1.message .listed (fun _ => 0) (.Local, "uos") 0).bind fun text =>
        text.map fun _ => (r.1.limit (.Local, "uos") .password).isSome) = some true := by
    decide +kernel
  obtain ⟨⟨m, answers⟩, hr, hmessage⟩ := Option.bind_eq_some_iff.mp hmessage
  obtain ⟨_, htext, hsome⟩ := Option.bind_eq_some_iff.mp hmessage
  obtain ⟨text, rfl, hl⟩ := Option.map_eq_some_iff.mp hsome
  obtain ⟨l, hl⟩ := Option.isSome_iff_exists.mp hl
  obtain ⟨⟨les, m'⟩, hget, -⟩ := Option.map_eq_some_iff.mp htext
  have hrange : (configured threeTries .password).InRange :=
    ⟨by decide, fun _ => .inr (by decide), by decide⟩
  have hcounts : Along (LimitTable.call threeTries .listed) Counting ∅ loadOnce := by
    refine ⟨trivial, fun _ _ _ => ⟨?_, fun _ _ _ => trivial⟩⟩
    intro s hs
    rw [List.mem_singleton.mp hs]
    decide
  obtain ⟨info, retry, hreply, hretry, hsays, -⟩ :=
    chances_left JsonC.plain_reads (by decide) hrange (by decide) (by decide) hr hcounts htext
      (by decide) hl hget
  refine ⟨m, answers, text, les, m', info, retry, hr, htext, hget, hreply, hretry, ?_⟩
  cases retry with
  | locked => trivial
  | _ => exact hsays

end words

end LingmoAuthenticate.System.ChancesLeft
