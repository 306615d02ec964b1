import Mathlib.Algebra.BigOperators.Group.List.Basic
import Mathlib.Algebra.Order.BigOperators.Group.List
import Mathlib.Algebra.Order.Group.Nat
import LingmoAuthenticate.Limits.Export
import LingmoAuthenticate.PamModule.LimitsInfo

/-!
# The message with the limits of a user

`dbus_method_get_limits` of the PAM module prints the text that `GetLimits` answers with into a
buffer of `LIMITS_BUF_SIZE` characters, whatever its length.

* `toJSON` is the text and `sprintfLimits` the printing.
* `messageWidth` is the length of the longest message of a configuration: every type that a new user
  has a limit of (`typesOf`), with its longest entry.
* `length_message_le` and `exists_longest_message`: no message is longer, and one is as long.
* `limits_message_fits_iff`: the messages fit exactly where `messageWidth` is less than the size of
  the buffer.
-/

namespace LingmoAuthenticate.Limits

open Lib AuthCommon
open PamModule (limitsBufSize)

/-! ## The message and its reader -/

/-- Source: `common.go`, `ToJSON`, of what `getLimits` returns; `none` where it returns an error. -/
def toJSON (offset : AuthType → ℤ) (limits : List LimitForExport) : Option (List Char) :=
  (limits.mapM (jsonEntry offset)).map fun texts => '[' :: (List.intercalate [','] texts ++ [']'])

/-- The answer, from the last `getLimits` of the call; what comes before it is a call on the table
of its own. `none` is a panic, and an inner `none` an error.
Source: `manager.go`, `Manager.GetLimits`. -/
def LimitTable.message (order : StatesOrder) (offset : AuthType → ℤ) (m : LimitTable) (k : UserKey)
    (now : ℤ) : Option (Option (List Char)) :=
  (m.getLimits order k now).map fun r => toJSON offset r.1

/-- `sprintf(limits, "%s", res)` into the buffer of `get_limits_info`, with the `NUL`; `none` where
it writes past the end. Source: `dbus.c`, `dbus_method_get_limits`. -/
def sprintfLimits (res : List Char) : Option (List Char) :=
  if res.length + 1 ≤ limitsBufSize then some res else none

/-! ## The longest message of a configuration -/

/-- The limit of a type as a new user has it. -/
def configured (config : List (Option LimitConfig)) (t : AuthType) : Limit :=
  match (ofType config t).getLast? with
  | some c => .ofConfig c
  | none => .unlimited t

/-- The types of which a new user has a limit: a type outside of `AllAuthTypes` only if it is
configured. -/
def typesOf (config : List (Option LimitConfig)) : List AuthType :=
  allAuthTypes ++ if ofType config .fingerVein = [] then [] else [.fingerVein]

/-- The longest message: the entries, each with a comma or a bracket after it, and the first
bracket. -/
def messageWidth (config : List (Option LimitConfig)) : ℕ :=
  1 + ((typesOf config).map fun t => (configured config t).width + 1).sum

/-- A call after which the counters are still counts of Go's `int`. -/
def Counting (m : LimitTable) : ℤ × LimitsCall → Prop
  | (_, .table (.fail k t)) => ∀ l, m.limit k t = some l → l.numFailures + 1 < 2 ^ 63
  | (_, .loadStates _ states) => ∀ s ∈ states, 0 ≤ s.numFailures ∧ s.numFailures < 2 ^ 63
  | (_, .loadLimitStates states) =>
      ∀ e ∈ states, ∀ s ∈ e.2, 0 ≤ s.numFailures ∧ s.numFailures < 2 ^ 63
  | _ => True

/-- Every message about a table that calls lead to fits its reader. -/
def MessagesFit (config : List (Option LimitConfig)) : Prop :=
  ∀ (order order' : StatesOrder) (calls : List (ℤ × LimitsCall)) (m : LimitTable)
    (answers : List LimitsAnswer),
    run (LimitTable.call config order) ∅ calls = some (m, answers) →
    Along (LimitTable.call config order) Counting ∅ calls →
    ∀ (offset : AuthType → ℤ) (k : UserKey) (now : ℤ) (text : List Char),
      m.message order' offset k now = some (some text) → sprintfLimits text = some text

theorem sprintfLimits_eq_some_iff {text : List Char} :
    sprintfLimits text = some text ↔ text.length < limitsBufSize := by
  unfold sprintfLimits
  rw [Option.ite_none_right_eq_some, eq_self, and_true, Nat.succ_le_iff]

/-! ## The length of a message -/

section loops

variable {α β γ : Type} {f : α → Option β}

/-- A loop with a result at each element. -/
theorem mapM_eq_some_iff {as : List α} {bs : List β} :
    as.mapM f = some bs ↔ List.Forall₂ (fun a b => f a = some b) as bs := by
  induction as generalizing bs with
  | nil => simp [eq_comm]
  | cons a as ih =>
      rw [mapM_eq_some_cons, List.forall₂_cons_left_iff]
      simp only [ih]

/-- Two loops over one list. -/
theorem forall₂_trans {R : α → β → Prop} {P : β → γ → Prop} {Q : α → γ → Prop}
    (hQ : ∀ a b c, R a b → P b c → Q a c) {as : List α} {bs : List β} {cs : List γ}
    (h : List.Forall₂ R as bs) (h' : List.Forall₂ P bs cs) : List.Forall₂ Q as cs := by
  induction h generalizing cs with
  | nil =>
      rw [List.forall₂_nil_left_iff.mp h']
      exact .nil
  | cons hab _ ih =>
      obtain ⟨c, cs', hbc, hrest, rfl⟩ := List.forall₂_cons_left_iff.mp h'
      exact .cons (hQ _ _ c hab hbc) (ih hrest)

end loops

/-- The brackets, the entries, and a comma between two of them. -/
theorem length_brackets {texts : List (List Char)} (h : texts ≠ []) :
    ('[' :: (List.intercalate [','] texts ++ [']'])).length =
      1 + (texts.map fun text => text.length + 1).sum := by
  have hcommas : (List.intercalate [','] texts).length + 1 =
      (texts.map fun text => text.length + 1).sum := by
    induction texts with
    | nil => exact absurd rfl h
    | cons text texts ih =>
        by_cases hnil : texts = []
        · simp [hnil]
        · rw [List.intercalate_cons_of_ne_nil hnil, List.map_cons, List.sum_cons, ← ih hnil]
          simp only [List.length_append, List.length_singleton]
          omega
  rw [List.length_cons, List.length_append, List.length_singleton, hcommas, add_comm]

/-- The text of an entry of the table. -/
def EntryText (offset : AuthType → ℤ) (now : ℤ) (e : Σ _ : AuthType, Option Limit)
    (text : List Char) : Prop :=
  ∃ l answer l', e.2 = some l ∧ l.allow now = some (answer, l') ∧
    jsonEntry offset (l'.forExport answer) = some text

section messages

variable {config : List (Option LimitConfig)} {base ul : UserLimits} {m : LimitTable}
  {order : StatesOrder} {offset : AuthType → ℤ} {k : UserKey} {now : ℤ} {text : List Char}
  {es : List (Σ _ : AuthType, Option Limit)}

/-- The loop over the limits lists each with its answer. -/
theorem exportRounds_exports {acc r : UserLimits × List LimitForExport}
    (h : es.foldlM (exportRound now) acc = some r) :
    ∃ les, r.2 = acc.2 ++ les ∧ List.Forall₂ (fun e le => ∃ l answer l', e.2 = some l ∧
      l.allow now = some (answer, l') ∧ le = l'.forExport answer) es les := by
  induction es generalizing acc with
  | nil =>
      cases h
      exact ⟨[], (List.append_nil _).symm, .nil⟩
  | cons e es ih =>
      rw [List.foldlM_cons] at h
      obtain ⟨acc', hround, h⟩ := Option.bind_eq_some_iff.mp h
      obtain ⟨l, hl, hround⟩ := Option.bind_eq_some_iff.mp hround
      obtain ⟨⟨answer, l'⟩, hallow, rfl⟩ := Option.map_eq_some_iff.mp hround
      obtain ⟨les, hles, hrest⟩ := ih h
      refine ⟨l'.forExport answer :: les, ?_, .cons ⟨l, answer, l', hl, hallow, rfl⟩ hrest⟩
      rw [hles, List.append_assoc, List.singleton_append]

/-- **A message** has the texts of the entries of a user, in some order. -/
theorem message_eq_some (h : m.message order offset k now = some (some text)) :
    m.lookup k = none ∧ text.length = 2 ∨
      ∃ ul texts, m.lookup k = some ul ∧
        List.Forall₂ (EntryText offset now) (order.limits k ul) texts ∧
        text = '[' :: (List.intercalate [','] texts ++ [']']) := by
  obtain ⟨r, hr, hjson⟩ := Option.map_eq_some_iff.mp h
  obtain ⟨texts, htexts, rfl⟩ := Option.map_eq_some_iff.mp hjson
  unfold LimitTable.getLimits at hr
  rcases hk : m.lookup k with _ | ul <;> rw [hk] at hr
  · cases hr
    cases htexts
    exact Or.inl ⟨rfl, rfl⟩
  · obtain ⟨acc, hacc, rfl⟩ := Option.map_eq_some_iff.mp hr
    obtain ⟨les, hles, hexports⟩ := exportRounds_exports hacc
    dsimp only at htexts
    rw [hles, List.nil_append] at htexts
    refine Or.inr ⟨ul, texts, rfl, ?_, rfl⟩
    refine forall₂_trans ?_ hexports (mapM_eq_some_iff.mp htexts)
    rintro e _ text ⟨l, answer, l', hl, hallow, rfl⟩ htext
    exact ⟨l, answer, l', hl, hallow, htext⟩

/-! ## The types of the entries -/

theorem nodup_typesOf (config : List (Option LimitConfig)) : (typesOf config).Nodup := by
  unfold typesOf
  split_ifs
  · decide
  · decide

/-- A new user has the limits that are configured. -/
theorem lookup_configured (hbase : newUserLimits config = some base) {t : AuthType}
    (ht : t ∈ typesOf config) : base.lookup t = some (some (configured config t)) := by
  have hflag : authTypeToFlag t ≠ 0 := by
    rcases List.mem_append.mp ht with hall | hvein
    · exact authTypeToFlag_ne_zero_of_mem hall
    · split_ifs at hvein
      · cases hvein
      · rw [List.mem_singleton.mp hvein]
        decide
  unfold configured
  rcases hlast : (ofType config t).getLast? with _ | c
  · -- without an element, the type is one of the table
    have hnil : ofType config t = [] := List.getLast?_eq_none_iff.mp hlast
    have hall : t ∈ allAuthTypes := by
      rcases List.mem_append.mp ht with hall | hvein
      · exact hall
      · split_ifs at hvein with hof
        · cases hvein
        · rw [List.mem_singleton.mp hvein] at hnil
          exact absurd hnil hof
    obtain ⟨o, ho⟩ := Option.isSome_iff_exists.mp
      ((newUserLimits_wellFormed hbase).complete t hall)
    obtain ⟨l, rfl, -⟩ := (newUserLimits_wellFormed hbase).keyed t o ho
    rcases lookup_newUserLimits hbase ho with ⟨-, rfl⟩ | ⟨-, c, hc, -⟩
    · exact ho
    · rw [hlast] at hc
      cases hc
  · exact lookup_newUserLimits_of_last hbase hflag hlast

theorem mem_typesOf_iff (hbase : newUserLimits config = some base) {t : AuthType} :
    t ∈ typesOf config ↔ (base.lookup t).isSome := by
  constructor
  · intro ht
    rw [lookup_configured hbase ht]
    rfl
  · intro hsome
    obtain ⟨o, ho⟩ := Option.isSome_iff_exists.mp hsome
    obtain ⟨l, rfl, -⟩ := (newUserLimits_wellFormed hbase).keyed t o ho
    unfold typesOf
    rcases lookup_newUserLimits hbase ho with ⟨hall, -⟩ | ⟨hflag, c, hc, -⟩
    · exact List.mem_append_left _ hall
    · by_cases hall : t ∈ allAuthTypes
      · exact List.mem_append_left _ hall
      · have hvein : t = .fingerVein := by
          cases t with
          | fingerVein => rfl
          | other name => exact absurd rfl hflag
          | _ => exact absurd (by decide) hall
        subst hvein
        have hne : ofType config .fingerVein ≠ [] := by
          intro hnil
          rw [hnil] at hc
          cases hc
        apply List.mem_append_right
        rw [if_neg hne]
        exact List.mem_singleton_self _

theorem isSome_of_rel {α β : Type} {R : α → β → Prop} {o : Option α} {o' : Option β}
    (h : Option.Rel R o o') : o'.isSome = o.isSome := by
  rcases h with _ | _
  · rfl
  · rfl

/-- The entries of a user, with related limits, are those of a new user. -/
theorem keys_perm {R : Limit → Limit → Prop} (hbase : newUserLimits config = some base)
    (hrel : base.Rel R ul) (hes : ul.Ranges es) :
    (es.map Sigma.fst).Perm (typesOf config) := by
  rw [List.perm_ext_iff_of_nodup hes.nodup (nodup_typesOf config)]
  intro t
  rw [hes.mem_keys_iff, mem_typesOf_iff hbase]
  rw [isSome_of_rel (hrel t)]

/-- The longest message, over the entries. -/
theorem messageWidth_eq (hkeys : (es.map Sigma.fst).Perm (typesOf config)) :
    messageWidth config = 1 + ((es.map fun e => (configured config e.1).width + 1)).sum := by
  have hsum := (hkeys.map fun t => (configured config t).width + 1).sum_eq
  rw [List.map_map] at hsum
  rw [messageWidth, ← hsum]
  rfl

/-- The limits of a new user have counters that count. -/
theorem rel_counted (hbase : newUserLimits config = some base) : base.Rel Limit.Counted base := by
  intro t
  rcases hb : base.lookup t with _ | o
  · exact .none
  · have ht : t ∈ typesOf config := (mem_typesOf_iff hbase).mpr (by rw [hb]; rfl)
    have ho := lookup_configured hbase ht
    rw [hb, Option.some.injEq] at ho
    subst ho
    have hzero : (configured config t).numFailures = 0 := by
      unfold configured
      split
      · rfl
      · rfl
    refine .some (.some ⟨.refl _, fun _ => Or.inl rfl, hzero.ge, ?_⟩)
    rw [hzero]
    decide

theorem kept_counted : Limit.Kept Limit.Counted where
  allow _ _ _ _ _ h ha := h.allow ha
  reset _ _ h := h.reset
  resetAll _ _ h := h.resetAll

/-- A call after which the counters are counts leaves them counts. -/
theorem Counting.callKeeps {c : ℤ × LimitsCall} (h : Counting m c) :
    CallKeeps Limit.Counted m c := by
  obtain ⟨now, c⟩ := c
  cases c with
  | table op =>
      cases op with
      | fail k t => exact fun l l₀ hl h₀ => h₀.fail (h l hl)
      | _ => trivial
  | loadStates k states => exact fun s hs l₀ l h₀ => h₀.load (h s hs).1 (h s hs).2
  | loadLimitStates states => exact fun e he s hs l₀ l h₀ => h₀.load (h e he s hs).1 (h e he s hs).2
  | _ => trivial

/-- **No message is longer** about a table whose counters are counts. -/
theorem length_message_le (hbase : newUserLimits config = some base)
    (hm : m.From Limit.Counted base) (h : m.message order offset k now = some (some text)) :
    text.length ≤ messageWidth config := by
  have htwo : 2 ≤ messageWidth config := by
    unfold messageWidth typesOf allAuthTypes
    simp only [List.cons_append, List.map_cons, List.sum_cons]
    omega
  rcases message_eq_some h with ⟨-, hlen⟩ | ⟨ul, texts, hul, htexts, rfl⟩
  · rw [hlen]
    exact htwo
  by_cases hnil : texts = []
  · rw [hnil]
    exact htwo
  have hrel := hm k ul hul
  have hranges := order.limits_ranges k ul
  have hbound : ∀ e ∈ order.limits k ul, ∀ text, EntryText offset now e text →
      text.length + 1 ≤ (configured config e.1).width + 1 := by
    rintro e he text ⟨l, answer, l', hl, hallow, hentry⟩
    have ht : e.1 ∈ typesOf config :=
      (keys_perm hbase hrel hranges).mem_iff.mp (List.mem_map_of_mem he)
    have he' := hrel e.1
    rw [lookup_configured hbase ht, hranges.mem_iff.mp he, hl] at he'
    have hcounted := Option.rel_some_some.mp (Option.rel_some_some.mp he')
    exact Nat.succ_le_succ (hcounted.length_entry hallow hentry)
  rw [messageWidth_eq (keys_perm hbase hrel hranges), length_brackets hnil]
  apply Nat.add_le_add_left
  apply List.Forall₂.sum_le_sum
  rw [List.forall₂_map_left_iff, List.forall₂_map_right_iff]
  apply List.Forall₂.flip
  exact ((List.forall₂_and_left _ _).mpr ⟨hbound, htexts⟩).imp fun e text h => h.1 text h.2

/-! ## The longest message is reached -/

/-- Where each entry has a text, the loop over the limits lists them all. -/
theorem exportRounds_of_texts {texts : List (List Char)}
    (h : List.Forall₂ (EntryText offset now) es texts) (acc : UserLimits × List LimitForExport) :
    ∃ r les, es.foldlM (exportRound now) acc = some r ∧ r.2 = acc.2 ++ les ∧
      les.mapM (jsonEntry offset) = some texts := by
  induction h generalizing acc with
  | nil => exact ⟨acc, [], rfl, (List.append_nil _).symm, rfl⟩
  | @cons e text es texts he _ ih =>
      obtain ⟨l, answer, l', hl, hallow, htext⟩ := he
      have hround : exportRound now acc e =
          some (acc.1.insert e.1 (some l'), acc.2 ++ [l'.forExport answer]) := by
        rw [exportRound, hl, Option.bind_some, hallow]
        rfl
      obtain ⟨r, les, hr, hles, hmap⟩ :=
        ih (acc.1.insert e.1 (some l'), acc.2 ++ [l'.forExport answer])
      refine ⟨r, l'.forExport answer :: les, ?_, ?_, ?_⟩
      · rw [List.foldlM_cons, hround]
        exact hr
      · rw [hles, List.append_assoc, List.singleton_append]
      · exact mapM_eq_some_cons.mpr ⟨text, texts, htext, hmap, rfl⟩

/-- Where each entry has a text, there is a message. -/
theorem message_of_texts {texts : List (List Char)} (hul : m.lookup k = some ul)
    (h : List.Forall₂ (EntryText offset now) (order.limits k ul) texts) :
    m.message order offset k now =
      some (some ('[' :: (List.intercalate [','] texts ++ [']']))) := by
  obtain ⟨r, les, hr, hles, hmap⟩ := exportRounds_of_texts h (ul, [])
  have hlimits : m.getLimits order k now = some (les, m.insert k r.1) := by
    unfold LimitTable.getLimits
    rw [hul]
    dsimp only
    rw [hr, Option.map_some, hles, List.nil_append]
  rw [LimitTable.message, hlimits, Option.map_some, toJSON, hmap, Option.map_some]

/-- The limit of a type is configured under its name. -/
theorem configured_type (hbase : newUserLimits config = some base) {t : AuthType}
    (ht : t ∈ typesOf config) : (configured config t).type0 = t := by
  obtain ⟨l, hl, htype, -⟩ :=
    (newUserLimits_wellFormed hbase).keyed t _ (lookup_configured hbase ht)
  rw [Option.some.injEq] at hl
  rw [hl, htype]

/-- The tries of a limit are configured, or there is no limit. -/
theorem configured_maxTries (hints : ∀ c, some c ∈ config → 0 ≤ c.maxTries ∧ c.maxTries < 2 ^ 63)
    (t : AuthType) :
    0 ≤ (configured config t).maxTries ∧ (configured config t).maxTries < 2 ^ 63 := by
  unfold configured
  rcases hlast : (ofType config t).getLast? with _ | c
  · exact ⟨le_rfl, (by decide : (0 : ℤ) < 2 ^ 63)⟩
  · apply hints c
    have hmem := List.mem_of_mem_filter (List.mem_of_getLast? hlast)
    exact List.reduceOption_mem_iff.mp hmem

/-- **One message is as long**: the states that lead to the longest entries are loaded. -/
theorem exists_longest_message (hbase : newUserLimits config = some base)
    (hints : ∀ c, some c ∈ config → 0 ≤ c.maxTries ∧ c.maxTries < 2 ^ 63) :
    ∃ calls m answers text, run (LimitTable.call config .listed) ∅ calls = some (m, answers) ∧
      Along (LimitTable.call config .listed) Counting ∅ calls ∧
      m.message .listed longestOffset (.Local, "uos") 1 = some (some text) ∧
      text.length = messageWidth config := by
  let k : UserKey := (.Local, "uos")
  choose s hs using fun t => exists_longest (configured_maxTries hints t).1
    (configured_maxTries hints t).2
  let states : List LimitState := (typesOf config).map s
  have htypes : states.map LimitState.type = typesOf config := by
    rw [List.map_map]
    conv_rhs => rw [← List.map_id (typesOf config)]
    apply List.map_congr_left
    intro t ht
    exact (hs t).type.trans (configured_type hbase ht)
  let m₁ : LimitTable := (∅ : LimitTable).insert k base
  let m₂ : LimitTable := states.foldl (LimitTable.loadState k) m₁
  let ul : UserLimits := states.foldl UserLimits.loadState base
  have hul : m₂.lookup k = some ul := by
    rw [lookup_loadUser, if_pos rfl, AList.lookup_insert]
    rfl
  have hlookup : ∀ t ∈ typesOf config,
      ul.lookup t = some (some ((configured config t).load (s t))) := by
    intro t ht
    have hload := (lookup_loadStates (by rw [htypes]; exact nodup_typesOf config) base).1 (s t)
      (List.mem_map_of_mem ht)
    rw [(hs t).type, configured_type hbase ht, lookup_configured hbase ht] at hload
    exact hload
  have hkeys : (ul.entries.map Sigma.fst).Perm (typesOf config) :=
    keys_perm hbase (UserLimits.Rel.loadStates states (.refl .refl base)) ul.ranges_entries
  -- each entry has the text of its longest state
  have htexts : ∀ e : Σ _ : AuthType, Option Limit, ∃ text, e ∈ ul.entries →
      EntryText longestOffset 1 e text ∧ text.length = (configured config e.1).width := by
    intro e
    obtain ⟨answer, l', text, hallow, htext, hlen⟩ := (hs e.1).entry
    refine ⟨text, fun he => ⟨⟨_, answer, l', ?_, hallow, htext⟩, hlen⟩⟩
    have ht : e.1 ∈ typesOf config := hkeys.mem_iff.mp (List.mem_map_of_mem he)
    have hl := ul.ranges_entries.mem_iff.mp he
    rw [hlookup e.1 ht, Option.some.injEq] at hl
    exact hl.symm
  choose text htext using htexts
  have hforall : List.Forall₂ (EntryText longestOffset 1) ul.entries (ul.entries.map text) :=
    List.forall₂_map_right_iff.mpr (List.forall₂_same.mpr fun e he => (htext e he).1)
  have hload : LimitTable.call config .listed m₁ (0, .loadStates k states) =
      some (m₂, .done) := rfl
  refine ⟨[(0, .table (.initLimitsByUsername k)), (0, .loadStates k states)], m₂,
    [.allowed none, .done], _, ?_, ?_, message_of_texts hul hforall, ?_⟩
  · exact run_cons_eq_some.mpr ⟨_, _, _, call_init_empty hbase, run_of_step hload, rfl⟩
  · refine (along_cons_of_eq (call_init_empty hbase)).mpr ⟨trivial, ?_⟩
    refine (along_cons_of_eq hload).mpr ⟨?_, trivial⟩
    intro state hstate
    obtain ⟨t, -, rfl⟩ := List.mem_map.mp hstate
    exact ⟨(hs t).nonneg, (hs t).lt⟩
  · have hne : ul.entries.map text ≠ [] := by
      intro hnil
      have hlen := hkeys.length_eq
      rw [List.length_map, List.map_eq_nil_iff.mp hnil, List.length_nil] at hlen
      have hsome : 0 < (typesOf config).length := by
        unfold typesOf
        rw [List.length_append]
        exact Nat.lt_add_right _ (by decide)
      omega
    rw [length_brackets hne, messageWidth_eq hkeys, List.map_map]
    congr 2
    apply List.map_congr_left
    intro e he
    exact congrArg (· + 1) (htext e he).2

/-- **The limits message fits its reader** exactly where the longest message of the configuration
does: then so does every message about a table that calls lead to, with any counts, instants of
locks and zones. -/
theorem limits_message_fits_iff {limits : List (Option LimitConfig)}
    {sessionShell : Option SessionShellFile} (hload : loadConfig limits sessionShell = some config)
    (hints : ∀ c, some c ∈ config → c.maxTries < 2 ^ 63) :
    MessagesFit config ↔ messageWidth config < limitsBufSize := by
  obtain ⟨merged, -, hmerged, hconfig⟩ := loadConfig_eq_some.mp hload
  have hnone : none ∉ config := by
    rw [hconfig]
    simpa using hmerged
  obtain ⟨base, hbase⟩ := Option.isSome_iff_exists.mp (newUserLimits_isSome hnone)
  constructor
  · intro hfit
    have hrange : ∀ c, some c ∈ config → 0 ≤ c.maxTries ∧ c.maxTries < 2 ^ 63 := by
      intro c hc
      refine ⟨maxTries_nonneg hload (t := c.type) ?_, hints c hc⟩
      exact List.mem_filter.mpr ⟨List.reduceOption_mem_iff.mpr hc, decide_eq_true rfl⟩
    obtain ⟨calls, m, answers, text, hr, halong, hmessage, hlen⟩ :=
      exists_longest_message hbase hrange
    have hprinted := hfit .listed .listed calls m answers hr halong _ _ _ text hmessage
    rw [← hlen]
    exact sprintfLimits_eq_some_iff.mp hprinted
  · intro hwidth order order' calls m answers hr halong offset k now text hmessage
    have hm : m.From Limit.Counted base :=
      run_invariant (I := fun m => m.From Limit.Counted base)
        (fun _ _ _ _ h hcount hcall =>
          call_from kept_counted hbase (rel_counted hbase) h hcount.callKeeps hcall)
        (fun k ul hul => by cases hul) halong hr
    exact sprintfLimits_eq_some_iff.mpr ((length_message_le hbase hm hmessage).trans_lt hwidth)

/-- Three tries of the password, with a lock that grows; the other types have no limit. -/
def passwordTries : List (Option LimitConfig) := [some ⟨.password, 600, 3, true, [60, 300]⟩]

/-- The longest message has 1022 characters. -/
theorem limits_message_fits_password : MessagesFit passwordTries := by
  refine (@limits_message_fits_iff passwordTries passwordTries none (by decide) ?_).mpr (by decide)
  intro c hc
  obtain rfl := Option.some.inj (List.mem_singleton.mp hc)
  decide

/-- Five types with five tries each, and a lock of a day. -/
def fiveTypes : List (Option LimitConfig) :=
  [.password, .fingerprint, .face, .fingerVein, .iris].map fun t => some ⟨t, 86400, 5, false, []⟩

/-- **The message about a new user overflows the buffer**: eight entries without a single failure
have 1028 characters. -/
theorem new_user_message_overflows :
    loadConfig fiveTypes none = some fiveTypes ∧
      (∃ m answers text, run (LimitTable.call fiveTypes .listed) ∅
          [(0, .table (.initLimitsByUsername (.Local, "uos")))] = some (m, answers) ∧
        m.message .listed (fun _ => 0) (.Local, "uos") 0 = some (some text) ∧
        text.length = 1028 ∧ sprintfLimits text = none) ∧
      ¬ MessagesFit fiveTypes := by
  have hload : loadConfig fiveTypes none = some fiveTypes := by decide
  obtain ⟨base, hbase⟩ := Option.isSome_iff_exists.mp
    (newUserLimits_isSome (by decide : none ∉ fiveTypes))
  have hr : run (LimitTable.call fiveTypes .listed) ∅
      [(0, .table (.initLimitsByUsername (.Local, "uos")))] =
      some ((∅ : LimitTable).insert (.Local, "uos") base, [.allowed none]) :=
    run_of_step (call_init_empty hbase)
  have hmessage : ∃ text, LimitTable.message .listed (fun _ => 0)
      ((∅ : LimitTable).insert (.Local, "uos") base) (.Local, "uos") 0 = some (some text) ∧
      text.length = 1028 := by
    have hlen : ((newUserLimits fiveTypes).bind fun base =>
        (LimitTable.message .listed (fun _ => 0) ((∅ : LimitTable).insert (.Local, "uos") base)
          (.Local, "uos") 0).bind fun text => text.map List.length) = some 1028 := by
      decide +kernel
    rw [hbase, Option.bind_some, Option.bind_eq_some_iff] at hlen
    obtain ⟨answer, hanswer, hlen⟩ := hlen
    obtain ⟨text, rfl, hcount⟩ := Option.map_eq_some_iff.mp hlen
    exact ⟨text, hanswer, hcount⟩
  obtain ⟨text, htext, hlen⟩ := hmessage
  have hnone : sprintfLimits text = none := by
    rw [sprintfLimits, hlen]
    exact if_neg (by decide)
  refine ⟨hload, ⟨_, _, text, hr, htext, hlen, hnone⟩, ?_⟩
  intro hfit
  have hprinted := hfit .listed .listed _ _ _ hr ⟨trivial, fun _ _ _ => trivial⟩ _ _ _ text htext
  rw [hnone] at hprinted
  cases hprinted

end messages

end LingmoAuthenticate.Limits
