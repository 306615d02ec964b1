import LingmoAuthenticate.Limits.Allowed
import LingmoAuthenticate.Limits.Isolation
import LingmoAuthenticate.PamModule.LimitPrompt

/-!
# The limits that a user is shown

A limit goes from the table of the service into the text of `GetLimits`, through the buffer and the
JSON reader of the PAM module into an entry of `ud->limits`, and from there into a prompt.

* `toJSON_eq`: the text of `GetLimits` is that of an array of objects, of plain strings.
* `message_reads`: the reader has the elements of the message.
* `limits_shown`: for every table that calls lead to, the entry of each type that the module knows
  is what the limit of that type answers at that instant.
* `wait_shown`: the minutes of the prompt are enough for the lock to be over, and one less is not;
  a lock for ever is shown with no minutes at all.
-/

namespace LingmoAuthenticate.System.LimitsShown

open Lib JsonText AuthCommon Limits PamModule

/-- An element on the right of two related lists is related to one on the left. -/
theorem exists_of_mem_right {α β : Type} {R : α → β → Prop} {as : List α} {bs : List β}
    (h : List.Forall₂ R as bs) {b : β} (hb : b ∈ bs) : ∃ a ∈ as, R a b := by
  induction h with
  | nil => exact absurd hb List.not_mem_nil
  | cons hab _ ih =>
      rcases List.mem_cons.mp hb with rfl | hb
      · exact ⟨_, List.mem_cons_self, hab⟩
      · obtain ⟨a, ha, hrel⟩ := ih hb
        exact ⟨a, List.mem_cons_of_mem _ ha, hrel⟩

/-! ## The message as a JSON value -/

/-- The members of an entry, with the text of its instant. -/
def members (le : LimitForExport) (unlockTime : List Char) : Members :=
  [("type", .string le.type.text.toList), ("flag", .int le.flag),
    ("unlockSecs", .int le.unlockSecs), ("maxTries", .int le.maxTries),
    ("numFailures", .int le.numFailures), ("locked", .boolean le.locked),
    ("unlockTime", .string unlockTime)]

/-- The instant of an entry, as text. -/
def unlockText (offset : AuthType → ℤ) (le : LimitForExport) : Option (List Char) :=
  rfc3339Nano (if le.locked then offset le.type else 0) le.unlockTime

/-- An entry is an object. -/
theorem jsonEntry_eq (offset : AuthType → ℤ) (le : LimitForExport) :
    jsonEntry offset le = (unlockText offset le).map fun u => objectText (members le u) := by
  have hkeys : "\x7b\"type\":".toList = '\x7b' :: (quote "type".toList ++ [':']) ∧
      ",\"flag\":".toList = ',' :: (quote "flag".toList ++ [':']) ∧
      ",\"unlockSecs\":".toList = ',' :: (quote "unlockSecs".toList ++ [':']) ∧
      ",\"maxTries\":".toList = ',' :: (quote "maxTries".toList ++ [':']) ∧
      ",\"numFailures\":".toList = ',' :: (quote "numFailures".toList ++ [':']) ∧
      ",\"locked\":".toList = ',' :: (quote "locked".toList ++ [':']) ∧
      ",\"unlockTime\":".toList = ',' :: (quote "unlockTime".toList ++ [':']) ∧
      "\x7d".toList = ['\x7d'] := by decide
  obtain ⟨h₁, h₂, h₃, h₄, h₅, h₆, h₇, h₈⟩ := hkeys
  unfold jsonEntry unlockText
  congr 1
  funext u
  rw [h₁, h₂, h₃, h₄, h₅, h₆, h₇, h₈]
  simp only [objectText, members, List.map_cons, List.map_nil, memberText, Scalar.text, quoted,
    quote, jsonBool, List.intercalate_cons_cons, List.intercalate_singleton, List.append_assoc,
    List.cons_append, List.nil_append]

/-- The entries that `getLimits` goes over. -/
def entriesOf (order : StatesOrder) (m : LimitTable) (k : UserKey) :
    List (Σ _ : AuthType, Option Limits.Limit) :=
  match m.lookup k with
  | none => []
  | some ul => order.limits k ul

/-- The object of an entry of the table. -/
def EntryMembers (offset : AuthType → ℤ) (now : ℤ) (e : Σ _ : AuthType, Option Limits.Limit)
    (ms : Members) : Prop :=
  ∃ l r l' u, e.2 = some l ∧ l.allow now = some (r, l') ∧
    unlockText offset (l'.forExport r) = some u ∧ ms = members (l'.forExport r) u

section message

variable {config : List (Option LimitConfig)} {order order' : StatesOrder} {m : LimitTable}
  {offset : AuthType → ℤ} {k : UserKey} {now : ℤ} {text : List Char} {t : AuthType}
  {l : Limits.Limit}

/-- The texts of the entries are those of objects. -/
theorem entryTexts_eq {es : List (Σ _ : AuthType, Option Limits.Limit)}
    {texts : List (List Char)} (h : List.Forall₂ (EntryText offset now) es texts) :
    ∃ mss, List.Forall₂ (EntryMembers offset now) es mss ∧ texts = mss.map objectText := by
  induction h with
  | nil => exact ⟨[], .nil, rfl⟩
  | @cons e text es texts he _ ih =>
      obtain ⟨mss, hmss, rfl⟩ := ih
      obtain ⟨l, r, l', hl, hallow, htext⟩ := he
      rw [jsonEntry_eq] at htext
      obtain ⟨u, hu, rfl⟩ := Option.map_eq_some_iff.mp htext
      exact ⟨_ :: mss, .cons ⟨l, r, l', u, hl, hallow, hu, rfl⟩ hmss, rfl⟩

/-- **The text of `GetLimits`** is that of the array of the entries. -/
theorem message_members (h : m.message order offset k now = some (some text)) :
    ∃ mss, List.Forall₂ (EntryMembers offset now) (entriesOf order m k) mss ∧
      text = arrayText mss := by
  unfold entriesOf
  rcases hk : m.lookup k with _ | ul
  · refine ⟨[], .nil, ?_⟩
    rw [LimitTable.message, LimitTable.getLimits, hk] at h
    cases h
    rfl
  · rcases message_eq_some h with ⟨hnone, -⟩ | ⟨ul', texts, hul, htexts, rfl⟩
    · rw [hnone] at hk
      cases hk
    · obtain rfl : ul' = ul := Option.some.inj (hul.symm.trans hk)
      obtain ⟨mss, hmss, rfl⟩ := entryTexts_eq htexts
      exact ⟨mss, hmss, rfl⟩

/-- The entries are the limits of the user. -/
theorem mem_entriesOf_iff : ⟨t, some l⟩ ∈ entriesOf order m k ↔ m.limit k t = some l := by
  rw [LimitTable.limit_eq_some_iff]
  unfold entriesOf
  rcases hk : m.lookup k with _ | ul
  · simp
  · dsimp only
    rw [(order.limits_ranges k ul).mem_iff]
    simp

end message

/-! ## The reader of the PAM module -/

/-- An integer, as json-c gives it. -/
def int32 (i : ℤ) : BitVec 32 := BitVec.ofInt 32 (max (-2 ^ 31) (min i (2 ^ 31 - 1)))

/-- What is written of an exported limit. -/
def entryOf (le : LimitForExport) (unlockTime : List Char) : PamModule.Limit :=
  ⟨int32 le.maxTries, int32 le.numFailures, le.locked, unlockTime.map byte⟩

section reader

variable {c : JsonC} {le : LimitForExport} {u : List Char} {t : AuthType} {i : ℕ}

theorem flagOf_members (hc : c.Reads) :
    flagOf c (objectJson (members le u)) = int32 le.flag := by
  have hvalue : (objectJson (members le u)).value "flag" = .int le.flag := rfl
  rw [flagOf, hvalue, hc.getInt]
  rfl

/-- An object is written to its entry. -/
theorem limitOf_members (hc : c.Reads) (hu : u.length < maxBufSize) :
    limitOf c (objectJson (members le u)) = some (entryOf le u) := by
  have hvalues : (objectJson (members le u)).value "maxTries" = .int le.maxTries ∧
      (objectJson (members le u)).value "numFailures" = .int le.numFailures ∧
      (objectJson (members le u)).value "locked" = .boolean le.locked ∧
      (objectJson (members le u)).value "unlockTime" = .string (u.map byte) :=
    ⟨rfl, rfl, rfl, rfl⟩
  obtain ⟨h₁, h₂, h₃, h₄⟩ := hvalues
  have hcopy : strcpy maxBufSize (some (u.map byte)) = some (u.map byte) := by
    rw [strcpy, Option.bind_some, List.length_map]
    exact if_pos hu
  rw [limitOf, h₁, h₂, h₃, h₄, hc.getInt, hc.getInt, hc.getBoolean, hc.getString, hcopy]
  rfl

/-- The position of a flag is that of its bit. -/
theorem isLowest_flag : IsLowest (int32 (authTypeToFlag t)) i ↔ t.flagBit? = some i := by
  have hbits : ∀ b ≤ 30, IsLowest (int32 ((2 ^ b : ℕ) : ℤ)) b := by decide
  have hbound : ∀ b, t.flagBit? = some b → b ≤ 30 := by
    intro b hb
    cases t <;> simp_all [AuthType.flagBit?]
    all_goals omega
  rcases hbit : t.flagBit? with _ | b
  · simp only [authTypeToFlag, hbit]
    have hzero : typeToIndex (int32 ((0 : ℕ) : ℤ)) = none := by decide
    rw [← typeToIndex_eq_some, hzero]
  · simp only [authTypeToFlag, hbit]
    have hlow := typeToIndex_eq_some.mpr (hbits b (hbound b hbit))
    rw [← typeToIndex_eq_some, hlow]

/-- The name of a type that has a flag is plain. -/
theorem plain_text (h : authTypeToFlag t ≠ 0) : Plain t.text.toList := by
  cases t with
  | other name => exact absurd rfl h
  | _ => decide

end reader

/-! ## What is shown -/

/-- The entries of `ud->limits` are what the limits of the table answer at an instant; the others
are as they were. -/
def Shown (offset : AuthType → ℤ) (m : LimitTable) (k : UserKey) (now : ℤ)
    (limits limits' : LimitEntries) : Prop :=
  ∀ i (hi : i < supportAtType),
    (∀ t l, t.flagBit? = some i → m.limit k t = some l →
      ∃ r l', l.allow now = some (r, l') ∧ limits'[i].maxTries = int32 l'.maxTries ∧
        limits'[i].numFailures = int32 l'.numFailures ∧ limits'[i].locked = !r.1 ∧
        (r.1 = false → ∀ zone now', resolveLimitTime zone now' limits'[i] =
          minutesUntil (r.2 / second + (offset t - zone) - now'))) ∧
    ((∀ t, t.flagBit? = some i → m.limit k t = none) → limits'[i] = limits[i])

section shown

variable {config : List (Option LimitConfig)} {order order' : StatesOrder} {m : LimitTable}
  {offset : AuthType → ℤ} {k : UserKey} {now : ℤ} {text : List Char} {c : JsonC}
  {e : Σ _ : AuthType, Option Limits.Limit} {ms : Members} {mss : List Members}
  {limits limits' : LimitEntries}

/-- An entry of a table that comes from a configuration. -/
theorem entry_spec (hwf : m.WellFormed) (he : e ∈ entriesOf order m k)
    (hms : EntryMembers offset now e ms) :
    ∃ l r l' u, m.limit k e.1 = some l ∧ l.allow now = some (r, l') ∧
      unlockText offset (l'.forExport r) = some u ∧ ms = members (l'.forExport r) u ∧
      (l'.forExport r).type = e.1 ∧ (l'.forExport r).flag = authTypeToFlag e.1 ∧
      authTypeToFlag e.1 ≠ 0 := by
  obtain ⟨l, r, l', u, hl, hallow, hu, rfl⟩ := hms
  obtain ⟨t, o⟩ := e
  obtain rfl : o = some l := hl
  have hlimit : m.limit k t = some l := mem_entriesOf_iff.mp he
  obtain ⟨ul, hul, hlookup⟩ := LimitTable.limit_eq_some_iff.mp hlimit
  obtain ⟨l₁, hl₁, htype, hflag, hne⟩ := (hwf k ul hul).keyed t _ hlookup
  obtain rfl : l = l₁ := Option.some.inj hl₁
  have hsame := Limit.allow_sameConfig hallow
  exact ⟨l, r, l', u, hlimit, hallow, hu, rfl, hsame.1.trans htype, hsame.2.1.trans hflag, hne⟩

/-- The strings of the message are plain. -/
theorem plainArray_entries (hwf : m.WellFormed)
    (hmss : List.Forall₂ (EntryMembers offset now) (entriesOf order m k) mss) :
    PlainArray mss := by
  intro ms hms
  obtain ⟨e, he, hentry⟩ := exists_of_mem_right hmss hms
  obtain ⟨l, r, l', u, -, -, hu, rfl, htype, -, hne⟩ := entry_spec hwf he hentry
  have htext : Plain (l'.forExport r).type.text.toList := by
    rw [htype]
    exact plain_text hne
  have htime : Plain u := plain_rfc3339Nano hu
  simp only [members, List.forall_mem_cons]
  refine ⟨⟨by decide, htext⟩, ⟨by decide, trivial⟩, ⟨by decide, trivial⟩, ⟨by decide, trivial⟩,
    ⟨by decide, trivial⟩, ⟨by decide, trivial⟩, ⟨by decide, htime⟩, ?_⟩
  exact fun m hm => absurd hm List.not_mem_nil

/-- An object of the message does not stop the reader. -/
theorem parsable_members (hc : c.Reads) (hwf : m.WellFormed) (he : e ∈ entriesOf order m k)
    (hms : EntryMembers offset now e ms) : Parsable c (objectJson ms) := by
  obtain ⟨l, r, l', u, -, -, hu, rfl, -, hflag, hne⟩ := entry_spec hwf he hms
  have hlen : u.length < maxBufSize := lt_of_le_of_lt (rfc3339Nano_length hu) (by decide)
  have hbit : ∃ i, e.1.flagBit? = some i := by
    rw [← Option.isSome_iff_exists, Option.isSome_iff_ne_none]
    intro hnone
    exact hne (by rw [authTypeToFlag, hnone])
  obtain ⟨i, hi⟩ := hbit
  have hlow : IsLowest (flagOf c (objectJson (members (l'.forExport r) u))) i := by
    rw [flagOf_members hc, hflag]
    exact isLowest_flag.mpr hi
  refine ⟨typeToIndex_isSome.mp (by rw [typeToIndex_eq_some.mpr hlow]; rfl), fun _ => ?_⟩
  refine limitOf_isSome.mp ?_
  rw [limitOf_members hc hlen]
  rfl

/-- **What the reader makes of the message.** -/
theorem getLimitsInfo_message (hc : c.Reads) (hwf : m.WellFormed)
    (hmss : List.Forall₂ (EntryMembers offset now) (entriesOf order m k) mss)
    (hfits : (arrayText mss).length < limitsBufSize) (limits : LimitEntries) :
    ∃ limits', getLimitsInfo c (some ((arrayText mss).map byte)) limits = some limits' ∧
      Filled c (mss.map objectJson) limits limits' := by
  have hloop : getLimitsInfo c (some ((arrayText mss).map byte)) limits =
      (mss.map objectJson).foldlM (limitRound c) limits :=
    getLimitsInfo_eq (by rwa [List.length_map]) (hc.parse mss (plainArray_entries hwf hmss))
  have hparsable : ∀ j ∈ mss.map objectJson, Parsable c j := by
    intro j hj
    obtain ⟨ms, hms, rfl⟩ := List.mem_map.mp hj
    obtain ⟨e, he, hentry⟩ := exists_of_mem_right hmss hms
    exact parsable_members hc hwf he hentry
  obtain ⟨limits', hlimits⟩ := Option.isSome_iff_exists.mp (foldlM_limitRound_isSome hparsable)
  exact ⟨limits', hloop.trans hlimits, (filled_of_foldlM hlimits).2⟩

/-- The last element of a type is the object of its limit. -/
theorem lastOf_entry (hc : c.Reads) (hwf : m.WellFormed)
    (hmss : List.Forall₂ (EntryMembers offset now) (entriesOf order m k) mss) {i : ℕ} :
    (∀ j, lastOf c (mss.map objectJson) i = some j → ∃ t l r l' u, t.flagBit? = some i ∧
      m.limit k t = some l ∧ l.allow now = some (r, l') ∧ l'.type0 = t ∧
      unlockText offset (l'.forExport r) = some u ∧ j = objectJson (members (l'.forExport r) u)) ∧
    (lastOf c (mss.map objectJson) i = none → ∀ t, t.flagBit? = some i → m.limit k t = none) := by
  constructor
  · intro j hj
    have hmem := List.mem_of_find?_eq_some hj
    rw [List.mem_reverse] at hmem
    have hlow : IsLowest (flagOf c j) i := by simpa using List.find?_some hj
    obtain ⟨ms, hms, rfl⟩ := List.mem_map.mp hmem
    obtain ⟨e, he, hentry⟩ := exists_of_mem_right hmss hms
    obtain ⟨l, r, l', u, hl, hallow, hu, rfl, htype, hflag, -⟩ := entry_spec hwf he hentry
    rw [flagOf_members hc, hflag, isLowest_flag] at hlow
    exact ⟨e.1, l, r, l', u, hlow, hl, hallow, htype, hu, rfl⟩
  · intro hnone t ht
    by_contra hsome
    obtain ⟨l, hl⟩ := Option.ne_none_iff_exists'.mp hsome
    have he : ⟨t, some l⟩ ∈ entriesOf order m k := mem_entriesOf_iff.mpr hl
    obtain ⟨ms, hms, hentry⟩ := exists_of_mem_right hmss.flip he
    obtain ⟨l₁, r, l', u, -, -, -, rfl, -, hflag, -⟩ := entry_spec hwf he hentry
    have hall := List.find?_eq_none.mp hnone (objectJson (members (l'.forExport r) u))
      (List.mem_reverse.mpr (List.mem_map_of_mem hms))
    apply hall
    rw [decide_eq_true_iff, flagOf_members hc, hflag, isLowest_flag]
    exact ht

/-- **A message is shown** as the limits of its table are. -/
theorem shown_of_message (hc : c.Reads) (hwf : m.WellFormed)
    (hmessage : m.message order offset k now = some (some text))
    (hfits : text.length < limitsBufSize) (limits : LimitEntries) :
    ∃ limits', getLimitsInfo c (some (text.map byte)) limits = some limits' ∧
      Shown offset m k now limits limits' := by
  obtain ⟨mss, hmss, rfl⟩ := message_members hmessage
  obtain ⟨limits', hlimits, hfilled⟩ := getLimitsInfo_message hc hwf hmss hfits limits
  refine ⟨limits', hlimits, fun i hi => ?_⟩
  obtain ⟨hlast, hnone⟩ := lastOf_entry hc hwf hmss (i := i)
  have hentry := hfilled i hi
  rcases hof : lastOf c (mss.map objectJson) i with _ | j
  · rw [hof] at hentry
    refine ⟨?_, fun _ => hentry⟩
    intro t l ht hl
    rw [hnone hof t ht] at hl
    cases hl
  · rw [hof] at hentry
    obtain ⟨t, l, r, l', u, ht, hl, hallow, htype, hu, rfl⟩ := hlast j hof
    have hlen : u.length < maxBufSize := lt_of_le_of_lt (rfc3339Nano_length hu) (by decide)
    have hwritten : limits'[i] = entryOf (l'.forExport r) u :=
      Option.some.inj (hentry.symm.trans (limitOf_members hc hlen))
    constructor
    · intro t' l₁ ht' hl₁
      obtain rfl : t' = t := AuthType.flagBit?_inj ht' ht
      obtain rfl : l₁ = l := Option.some.inj (hl₁.symm.trans hl)
      refine ⟨r, l', hallow, ?_⟩
      rw [hwritten]
      refine ⟨rfl, rfl, rfl, ?_⟩
      intro hlocked zone now'
      have hinstant : rfc3339Nano (offset t') r.2 = some u := by
        rw [unlockText, Limits.Limit.forExport, hlocked, htype] at hu
        exact hu
      exact minutesTo_rfc3339Nano hinstant zone now'
    · intro hall
      rw [hall t ht] at hl
      cases hl

/-- **The limits are shown as they are.** For every table that calls lead to, over a configuration
without null elements, and every message about a user that fits the buffer: the PAM module reads it
to its end, and the entry of each type that it knows has the tries, the failures and the lock that
the limit of that type answers with at that instant, and the minutes to its end; an entry that the
user has no limit for is left as it was. -/
theorem limits_shown (hc : c.Reads) (hconfig : none ∉ config)
    {calls : List (ℤ × LimitsCall)} {answers : List LimitsAnswer}
    (hr : run (LimitTable.call config order) ∅ calls = some (m, answers))
    (hmessage : m.message order' offset k now = some (some text))
    (hfits : sprintfLimits text = some text) (limits : LimitEntries) :
    ∃ limits', getLimitsInfo c (some (text.map byte)) limits =
      some limits' ∧ Shown offset m k now limits limits' := by
  obtain ⟨base, hbase⟩ := Option.isSome_iff_exists.mp (newUserLimits_isSome hconfig)
  exact shown_of_message hc ((calls_fromConfig hbase fromConfig_empty hr).wellFormed hbase)
    hmessage (sprintfLimits_eq_some_iff.mp hfits) limits

end shown

/-- A password that locks for three minutes, at the first failure. -/
def oneTry : List (Option LimitConfig) := [some ⟨.password, 180, 1, false, []⟩]

/-- A password that has failed, five seconds after the epoch. -/
def failOnce : List (ℤ × LimitsCall) :=
  [(0, .table (.initLimitsByUsername (.Local, "uos"))),
    (5000000000, .table (.fail (.Local, "uos") .password))]

/-- The message about it, a second later. -/
theorem failOnce_message :
    ∃ m answers text, run (LimitTable.call oneTry .listed) ∅ failOnce = some (m, answers) ∧
      m.message .listed (fun _ => 28800) (.Local, "uos") 6000000000 = some (some text) ∧
      sprintfLimits text = some text ∧
      ∃ l unlock l', m.limit (.Local, "uos") .password = some l ∧
        l.allow 6000000000 = some ((false, unlock), l') := by
  have hmessage : ((run (LimitTable.call oneTry .listed) ∅ failOnce).bind fun r =>
      (r.1.message .listed (fun _ => 28800) (.Local, "uos") 6000000000).bind fun text =>
        text.map List.length) = some 886 := by
    decide +kernel
  have hrefused : ((run (LimitTable.call oneTry .listed) ∅ failOnce).bind fun r =>
      (r.1.limit (.Local, "uos") .password).bind fun l =>
        (l.allow 6000000000).map fun q => q.1.1) = some false := by
    decide +kernel
  obtain ⟨⟨m, answers⟩, hr, hmessage⟩ := Option.bind_eq_some_iff.mp hmessage
  obtain ⟨_, htext, hcount⟩ := Option.bind_eq_some_iff.mp hmessage
  obtain ⟨text, rfl, hlen⟩ := Option.map_eq_some_iff.mp hcount
  rw [hr, Option.bind_some] at hrefused
  obtain ⟨l, hl, hallow⟩ := Option.bind_eq_some_iff.mp hrefused
  obtain ⟨⟨⟨_, unlock⟩, l'⟩, hallow, rfl⟩ := Option.map_eq_some_iff.mp hallow
  refine ⟨m, answers, text, hr, htext, ?_, l, unlock, l', hl, hallow⟩
  exact sprintfLimits_eq_some_iff.mpr (by rw [hlen]; decide)

/-- The limits after the failure are shown. -/
theorem limits_shown_fail_once :
    ∃ m answers text limits', run (LimitTable.call oneTry .listed) ∅ failOnce =
        some (m, answers) ∧
      m.message .listed (fun _ => 28800) (.Local, "uos") 6000000000 = some (some text) ∧
      getLimitsInfo .plain (some (text.map byte)) noLimits = some limits' ∧
      Shown (fun _ => 28800) m (.Local, "uos") 6000000000 noLimits limits' := by
  obtain ⟨m, answers, text, hr, hmessage, hfits, -⟩ := failOnce_message
  obtain ⟨limits', hlimits, hshown⟩ :=
    limits_shown JsonC.plain_reads (by decide) hr hmessage hfits noLimits
  exact ⟨m, answers, text, limits', hr, hmessage, hlimits, hshown⟩

/-! ## The wait that is shown -/

/-- The instants of a call that may become those of a lock are of the clock. -/
def CallWallClock : ℤ × LimitsCall → Prop
  | (now, .table (.fail _ _)) => Limits.Limit.WallClock now
  | (_, .loadStates _ states) =>
      ∀ s ∈ states, s.lockAt = Time.zero ∨ Limits.Limit.WallClock s.lockAt
  | (_, .loadLimitStates states) =>
      ∀ e ∈ states, ∀ s ∈ e.2, s.lockAt = Time.zero ∨ Limits.Limit.WallClock s.lockAt
  | _ => True

/-- A limit of the configuration, whose lock, if any, began at an instant of the clock. -/
def Clocked (l₀ l : Limits.Limit) : Prop :=
  Limits.Limit.SameConfig l₀ l ∧ (l.lockAt = Time.zero ∨ Limits.Limit.WallClock l.lockAt)

section wait

variable {config : List (Option LimitConfig)} {order order' : StatesOrder} {base : UserLimits}
  {m m' m'' : LimitTable} {offset : AuthType → ℤ} {k : UserKey} {t : AuthType} {now : ℤ}
  {l₀ l l' : Limits.Limit}

theorem Clocked.reset (h : Clocked l₀ l) : Clocked l₀ l.reset :=
  ⟨h.1.trans (Limits.Limit.reset_sameConfig l), .inl (Limits.Limit.reset_lockAt l)⟩

theorem Clocked.tryReset (h : Clocked l₀ l) : Clocked l₀ (l.tryReset now) := by
  rcases Limits.Limit.tryReset_eq_or l now with heq | heq
  · rwa [heq]
  · rw [heq]
    exact h.reset

theorem Clocked.allow (h : Clocked l₀ l) {r : Bool × ℤ} (ha : l.allow now = some (r, l')) :
    Clocked l₀ l' := by
  by_cases hm : l.maxTries = 0
  · rw [Limits.Limit.allow, if_pos hm] at ha
    cases ha
    exact h
  · obtain ⟨l₁, hrefresh, rfl, -⟩ := (Limits.Limit.allow_eq_some hm).mp ha
    obtain ⟨-, hlock, -⟩ := Limits.Limit.refresh_same hrefresh
    have h₁ : Clocked l₀ l₁ :=
      ⟨h.1.trans (Limits.Limit.refresh_sameConfig hrefresh), by rw [hlock]; exact h.2⟩
    exact h₁.tryReset

theorem Clocked.fail (h : Clocked l₀ l) (hnow : Limits.Limit.WallClock now) :
    Clocked l₀ (l.fail now) := by
  refine ⟨h.1.trans (Limits.Limit.fail_sameConfig l now), ?_⟩
  have htry : Clocked l₀ (l.tryReset now) := h.tryReset
  unfold Limits.Limit.fail
  dsimp only
  split_ifs
  · exact h.2
  · exact .inr hnow
  · exact htry.2

theorem kept_clocked : Limits.Limit.Kept Clocked where
  allow _ _ _ _ _ h ha := h.allow ha
  reset _ _ h := h.reset
  resetAll _ l h := ⟨h.1.trans (Limits.Limit.resetAll_sameConfig l),
    .inl (Limits.Limit.reset_lockAt { l with numFailures := 0 })⟩

theorem CallWallClock.callKeeps {call : ℤ × LimitsCall} (h : CallWallClock call) :
    CallKeeps Clocked m call := by
  obtain ⟨now, call⟩ := call
  cases call with
  | table op =>
      cases op with
      | fail k t => exact fun _ _ _ h₀ => h₀.fail h
      | _ => trivial
  | loadStates k states => exact fun s hs _ _ h₀ => ⟨h₀.1, h s hs⟩
  | loadLimitStates states => exact fun e he s hs _ _ h₀ => ⟨h₀.1, h e he s hs⟩
  | _ => trivial

/-- The limits of a new user have no locks. -/
theorem rel_clocked (hbase : newUserLimits config = some base) : base.Rel Clocked base := by
  intro t
  rcases hb : base.lookup t with _ | o
  · exact .none
  · have ht : t ∈ typesOf config := (mem_typesOf_iff hbase).mpr (by rw [hb]; rfl)
    have ho := lookup_configured hbase ht
    rw [hb, Option.some.injEq] at ho
    subst ho
    have hzero : (configured config t).lockAt = Time.zero := by
      unfold configured
      split
      · rfl
      · rfl
    exact .some (.some ⟨.refl _, .inl hzero⟩)

/-- A limit of a table is related to the configured one. -/
theorem limit_from {R : Limits.Limit → Limits.Limit → Prop}
    (hfrom : LimitTable.From R base m) (hbase : newUserLimits config = some base)
    (hl : m.limit k t = some l) : R (configured config t) l := by
  obtain ⟨ul, hul, hlookup⟩ := LimitTable.limit_eq_some_iff.mp hl
  have hrel := hfrom k ul hul t
  rw [hlookup] at hrel
  rcases hb : base.lookup t with _ | o
  · rw [hb] at hrel
    cases hrel
  · have ht : t ∈ typesOf config := (mem_typesOf_iff hbase).mpr (by rw [hb]; rfl)
    rw [lookup_configured hbase ht] at hrel
    exact Option.rel_some_some.mp (Option.rel_some_some.mp hrel)

/-- A limit of a table that calls at instants of the clock lead to. -/
theorem limit_clocked (hconfig : none ∉ config) {calls : List (ℤ × LimitsCall)}
    {answers : List LimitsAnswer}
    (hr : run (LimitTable.call config order) ∅ calls = some (m, answers))
    (hcalls : ∀ call ∈ calls, CallWallClock call) (hl : m.limit k t = some l) :
    Clocked (configured config t) l := by
  obtain ⟨base, hbase⟩ := Option.isSome_iff_exists.mp (newUserLimits_isSome hconfig)
  have hfrom : m.From Clocked base := by
    refine run_invariant (I := fun m => m.From Clocked base) (P := fun _ => CallWallClock) ?_
      (fun k ul hul => by cases hul) ?_ hr
    · exact fun _ _ _ _ h hcall hstep =>
        call_from kept_clocked hbase (rel_clocked hbase) h hcall.callKeeps hstep
    · exact along_of_mem (fun call hcall _ => hcalls call hcall) ∅
  exact limit_from hfrom hbase hl

/-- A limit that has been reset is not refused. -/
theorem answer_reset (hm : 0 < l.maxTries) : l.reset.answer = (true, Time.zero) := by
  unfold Limits.Limit.answer
  rw [Limits.Limit.reset_numFailures, Limits.Limit.reset_maxTries, Limits.Limit.reset_unlockSecs]
  cases hd : l.dynamicLimit
  · simp [hm]
  · simp

/-- **A refusal** of a limit that does not lock for ever is of a lock that is still on. -/
theorem locked_of_refused (h : l.InRange) (hclock : Clocked l₀ l) (hpos : 0 < l.lockSecs)
    (hnow : Limits.Limit.WallClock now) {unlock : ℤ}
    (ha : l.allow now = some ((false, unlock), l')) :
    ∃ s, Limits.Limit.WallClock s ∧ l'.Locked s ∧ l'.lockSecs = l.lockSecs ∧
      unlock = s + second * l.lockSecs := by
  have hm := h.maxTries_pos
  have hb := h.lockSecs_bounds hpos
  obtain ⟨l₁, hrefresh, hl', hanswer⟩ := (Limits.Limit.allow_eq_some (by omega)).mp ha
  by_cases hn : l.maxTries ≤ l.numFailures
  · rw [h.refresh_of_failures hn, Option.some.injEq] at hrefresh
    subst hrefresh
    rcases hclock.2 with hzero | hwall
    · -- a lock that was taken back is not found again
      have hreset : l' = (l.setUnlockSecs l.lockSecs).reset := by
        rw [hl', Limits.Limit.tryReset_eq (l := l.setUnlockSecs l.lockSecs) hm hn (by simp; omega)
          hb.2 (.inl hzero) hnow]
        exact if_pos (.inl hzero)
      rw [hreset, answer_reset (l := l.setUnlockSecs l.lockSecs) hm] at hanswer
      cases hanswer
    · have hlocked : l.Locked l.lockAt := ⟨rfl, hn⟩
      by_cases hin : now ≤ l.lockAt + second * l.lockSecs
      · have hrefused := h.allow_locked hlocked hwall hnow hpos hin
        rw [hrefused, Option.some.injEq, Prod.mk.injEq, Prod.mk.injEq] at ha
        obtain ⟨⟨-, rfl⟩, rfl⟩ := ha
        exact ⟨l.lockAt, hwall, ⟨rfl, hn⟩, l.lockSecs_setUnlockSecs, rfl⟩
      · have hallowed := h.allow_overdue hlocked hwall hnow hpos (not_le.mp hin)
        rw [hallowed, Option.some.injEq, Prod.mk.injEq, Prod.mk.injEq] at ha
        cases ha.1.1
  · obtain ⟨l₂, hallowed⟩ := h.lockoutLaw.allowed_below (not_le.mp hn) now
    rw [hallowed] at ha
    cases ha

/-- The limit of the table that `getLimits` leaves. -/
theorem limit_getLimits (hwf : m.WellFormed) {les : List LimitForExport}
    (hget : m.getLimits order k now = some (les, m')) (hl : m.limit k t = some l)
    {r : Bool × ℤ} (ha : l.allow now = some (r, l')) : m'.entry k t = some (some l') := by
  have hentry := (LimitTable.entry_getLimits (k := k) (t := t) hwf hget).1 rfl
  rw [LimitTable.entry_of_limit hl] at hentry
  simp only [Entry.ask, Option.join_some, ha, Option.map_some, Option.some.injEq,
    Prod.mk.injEq] at hentry
  exact hentry.1.symm

/-- An entry that no call concerns stays as it is. -/
theorem entry_of_others (hm : m.Made config) {others : List (ℤ × LimitsCall)}
    {answers : List LimitsAnswer}
    (hr : run (LimitTable.call config order) m others = some (m', answers))
    (hothers : others.filterMap (concerning k t) = []) : m'.entry k t = m.entry k t := by
  have hentry := run_onEntry (k := k) (t := t) hm hr
  rw [hothers] at hentry
  exact (Prod.mk.inj (Option.some.inj hentry)).1.symm

/-- A question about a limit is one about its entry. -/
theorem allow_of_entry (h : m.entry k t = some (some l)) {r : Bool × ℤ}
    (ha : l.allow now = some (r, l')) : ∃ m', m.allow k t now = some (some r, m') := by
  have hl : m.limit k t = some l := by
    rw [LimitTable.limit_eq_join, h]
    rfl
  refine ⟨m.setLimit k t l', ?_⟩
  rw [LimitTable.allow, hl]
  simp only [ha, Option.map_some]

/-- A limit that is configured to lock for a time does so. -/
theorem Clocked.lockSecs_pos (h : Clocked l₀ l) (hin : l.InRange)
    (hends : l₀.dynamicLimit = false → 0 < l₀.unlockSecs) : 0 < l.lockSecs := by
  cases hd : l.dynamicLimit
  · obtain ⟨-, -, -, hdyn, -, hsame⟩ := h.1
    have hstatic : l₀.dynamicLimit = false := hdyn.symm.trans hd
    rw [Limits.Limit.lockSecs, hd, hsame hstatic]
    exact hends hstatic
  · exact zero_lt_one.trans_le (hin.lockSecs_dynamic hd).1

/-- **An entry that says it is locked** is that of a limit which has refused, and the prompt has the
minutes to the end of its lock. -/
theorem refused_of_shown {limits' : LimitEntries} (hshown : Shown offset m k now noLimits limits')
    {i : ℕ} (ht : t.flagBit? = some i) (hi : i < supportAtType)
    (hlocked : limits'[i].locked = true) :
    ∃ l unlock l', m.limit k t = some l ∧ l.allow now = some ((false, unlock), l') ∧
      ∀ now', resolveLimitTime (offset t) now' limits'[i] =
        minutesUntil (unlock / second - now') := by
  obtain ⟨hlimit, hnone⟩ := hshown i hi
  rcases hl : m.limit k t with _ | l
  · -- an entry without a limit is not locked
    have hzero : limits'[i] = noLimits[i] := hnone fun t' ht' => by
      rw [AuthType.flagBit?_inj ht' ht]
      exact hl
    rw [hzero, noLimits, Vector.getElem_replicate] at hlocked
    cases hlocked
  · obtain ⟨⟨allowed, unlock⟩, l', hallow, -, -, hflag, htime⟩ := hlimit t l ht hl
    obtain rfl : allowed = false := by
      rw [hlocked] at hflag
      simpa using hflag.symm
    refine ⟨l, unlock, l', rfl, hallow, fun now' => ?_⟩
    have heq := htime rfl (offset t) now'
    rw [sub_self, add_zero] at heq
    exact heq

/-- The minutes to an instant are enough, and one less is not. -/
theorem minutes_between {unlock now' : ℤ} (hwait : unlock / second - now' / second ≤ 2 ^ 36) :
    let minutes := minutesUntil (unlock / second - now' / second)
    (∀ later, now' + second * (60 * minutes + 1) ≤ later → unlock < later) ∧
    (0 < minutes → ∀ later, later ≤ now' + second * (60 * (minutes - 1)) → later ≤ unlock) := by
  intro minutes
  have henough : unlock / second - now' / second ≤ 60 * minutes := minutesUntil_enough hwait
  have htight : 0 < minutes → 60 * (minutes - 1) < unlock / second - now' / second :=
    minutesUntil_tight hwait
  clear_value minutes
  constructor
  · intro later hle
    unfold second at *
    omega
  · intro hpos later hle
    have hless := htight hpos
    unfold second at *
    omega

/-- **The wait that is shown is right.** Take a limit that locks for a time, in a table that calls
at instants of the clock lead to, and the entry that the PAM module has of it, which says that it is
locked. After the minutes of the prompt, and a second, the limit allows, and a minute earlier it
still refuses, whatever is called about other users and other types in between; the module is taken
to be in the zone in which the lock is kept, without summer time. -/
theorem wait_shown {c : JsonC} (hc : c.Reads) (hconfig : none ∉ config)
    (hrange : (configured config t).InRange)
    (hends : (configured config t).dynamicLimit = false → 0 < (configured config t).unlockSecs)
    {calls : List (ℤ × LimitsCall)} {answers : List LimitsAnswer}
    (hr : run (LimitTable.call config order) ∅ calls = some (m, answers))
    (hcalls : ∀ call ∈ calls, CallWallClock call) (hnow : Limits.Limit.WallClock now)
    {text : List Char} (hmessage : m.message order' offset k now = some (some text))
    {limits' : LimitEntries} (hlimits : getLimitsInfo c (some (text.map byte)) noLimits =
      some limits')
    {i : ℕ} (ht : t.flagBit? = some i) (hi : i < supportAtType)
    (hlocked : limits'[i].locked = true) {les : List LimitForExport}
    (hget : m.getLimits order' k now = some (les, m')) {others : List (ℤ × LimitsCall)}
    {answers' : List LimitsAnswer}
    (hr' : run (LimitTable.call config order) m' others = some (m'', answers'))
    (hothers : others.filterMap (concerning k t) = []) {now' : ℤ}
    (hnow' : Limits.Limit.WallClock now') :
    let minutes := resolveLimitTime (offset t) (now' / second) limits'[i]
    (∀ later, Limits.Limit.WallClock later → now' + second * (60 * minutes + 1) ≤ later →
      ∃ m₃, m''.allow k t later = some (some (true, Time.zero), m₃)) ∧
    (0 < minutes → ∀ later, Limits.Limit.WallClock later →
      later ≤ now' + second * (60 * (minutes - 1)) →
      ∃ until_ m₃, m''.allow k t later = some (some (false, until_), m₃)) := by
  intro minutes
  obtain ⟨base, hbase⟩ := Option.isSome_iff_exists.mp (newUserLimits_isSome hconfig)
  have hmade : m.Made config := run_invariant_of_step (fun _ _ _ _ h hs => h.call hs)
    LimitTable.made_empty hr
  have hwf : m.WellFormed := hmade.wellFormed
  -- the entry is that of a limit, which has refused
  have hfits : text.length < limitsBufSize := by
    by_contra hlong
    rw [getLimitsInfo_eq_none (by rwa [List.length_map, ← not_lt])] at hlimits
    cases hlimits
  obtain ⟨limits'', hread, hshown⟩ := shown_of_message hc hwf hmessage hfits noLimits
  rw [hread, Option.some.injEq] at hlimits
  subst hlimits
  obtain ⟨l, unlock, l', hl, hallow, htime⟩ := refused_of_shown hshown ht hi hlocked
  have hminutes : minutes = minutesUntil (unlock / second - now' / second) := htime (now' / second)
  -- the limit is locked until then
  have hclock := limit_clocked hconfig hr hcalls hl
  have hin : l.InRange := hrange.congr hclock.1
  have hpos : 0 < l.lockSecs := hclock.lockSecs_pos hin hends
  have hb := hin.lockSecs_bounds hpos
  obtain ⟨s, hs, hlock, hsecs, hunlock⟩ := locked_of_refused hin hclock hpos hnow hallow
  have hin' : l'.InRange := hin.congr (Limits.Limit.allow_sameConfig hallow)
  have hmade' : m'.Made config := by
    have hcall : m.call config order' (now, .getLimits k) = some (m', .limits les) := by
      rw [LimitTable.call, hget]
      rfl
    exact hmade.call hcall
  have hentry : m''.entry k t = some (some l') := by
    rw [entry_of_others hmade' hr' hothers]
    exact limit_getLimits hwf hget hl hallow
  have hwait : unlock / second - now' / second ≤ 2 ^ 36 := by
    unfold Limits.Limit.WallClock at hs hnow'
    unfold second at *
    omega
  obtain ⟨hafter, hbefore⟩ := minutes_between hwait
  rw [← hsecs] at hunlock hpos
  rw [hunlock] at hafter hbefore
  rw [hminutes, hunlock]
  constructor
  · intro later hlater hle
    exact allow_of_entry hentry
      (hin'.allow_overdue hlock hs hlater hpos (hafter later hle))
  · intro hshow later hlater hle
    obtain ⟨m₃, hm₃⟩ := allow_of_entry hentry
      (hin'.allow_locked hlock hs hlater hpos (hbefore hshow later hle))
    exact ⟨_, m₃, hm₃⟩

/-- Three minutes are shown for the lock, and three minutes it takes. -/
theorem wait_shown_fail_once :
    ∃ m answers text les m' limits', run (LimitTable.call oneTry .listed) ∅ failOnce =
        some (m, answers) ∧
      m.message .listed (fun _ => 28800) (.Local, "uos") 6000000000 = some (some text) ∧
      m.getLimits .listed (.Local, "uos") 6000000000 = some (les, m') ∧
      getLimitsInfo .plain (some (text.map byte)) noLimits = some limits' ∧
      let minutes := resolveLimitTime 28800 6 limits'[0]
      (∀ later, Limits.Limit.WallClock later → 6000000000 + second * (60 * minutes + 1) ≤ later →
        ∃ m₃, m'.allow (.Local, "uos") .password later = some (some (true, Time.zero), m₃)) ∧
      (0 < minutes → ∀ later, Limits.Limit.WallClock later →
        later ≤ 6000000000 + second * (60 * (minutes - 1)) →
        ∃ until_ m₃, m'.allow (.Local, "uos") .password later =
          some (some (false, until_), m₃)) := by
  obtain ⟨m, answers, text, hr, hmessage, hfits, l, unlock, l', hl, hallow⟩ := failOnce_message
  obtain ⟨⟨les, m'⟩, hget, -⟩ := Option.map_eq_some_iff.mp hmessage
  have hwf : m.WellFormed := (run_invariant_of_step (fun _ _ _ _ h hs => LimitTable.Made.call h hs)
    LimitTable.made_empty hr).wellFormed
  obtain ⟨limits', hlimits, hshown⟩ :=
    shown_of_message JsonC.plain_reads hwf hmessage (sprintfLimits_eq_some_iff.mp hfits) noLimits
  obtain ⟨r, l₁, hallow₁, -, -, hlocked, -⟩ := (hshown 0 (by decide)).1 .password l rfl hl
  rw [hallow, Option.some.injEq] at hallow₁
  obtain ⟨rfl, -⟩ := Prod.mk.inj hallow₁
  refine ⟨m, answers, text, les, m', limits', hr, hmessage, hget, hlimits, ?_⟩
  have hcalls : ∀ call ∈ failOnce, CallWallClock call := by
    simp only [failOnce, List.forall_mem_cons]
    exact ⟨trivial, (by decide : Limits.Limit.WallClock 5000000000), by simp⟩
  have hrange : (configured oneTry .password).InRange :=
    ⟨by decide, fun _ => .inr (by decide), by decide⟩
  have hnone : run (LimitTable.call oneTry .listed) m' [] = some (m', []) := rfl
  exact wait_shown JsonC.plain_reads (by decide) hrange (by decide) hr hcalls (by decide) hmessage
    hlimits rfl (by decide) hlocked hget hnone rfl (by decide)

end wait

end LingmoAuthenticate.System.LimitsShown
