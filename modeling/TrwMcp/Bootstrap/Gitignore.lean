import TrwMcp.Intent.LedgerRuns
import TrwMcp.Lib.Ignore
import TrwMcp.Lib.Text

/-!
# The required ignore rules

`_ensure_credentials_gitignored` appends the rules a `.trw/.gitignore` lacks. A rule counts as there
when some line spells it, whatever the lines after it say and whether or not the spelling is one
the ignore file takes for the path.
-/

namespace TrwMcp.Bootstrap

open Intent Lib Lib.Ignore

/-- `_REQUIRED_RULES` -/
def requiredRules : List (String × String) :=
  [("credentials.yaml",
      "# Secret: credentials.yaml holds the platform_api_key (mode 0600) — never track it " ++
        "(PRD-SEC-005)."),
    ("backups/", "# Pre-write copies of your instruction files — never track them (PRD-FIX-123)."),
    ("proprietary-installed.json",
      "# Your proprietary-entitlement record — a local install fact, never track it " ++
        "(PRD-INFRA-126)."),
    ("runtime/memory-token",
      "# Secret: this checkout's memory daemon grant (mode 0600) — never track it " ++
        "(PRD-CORE-280)."),
    ("code-index/",
      "# The rebuildable code index a reviewer dispatch builds — never track it (PRD-CORE-300)."),
    ("channels/cc03-python.txt",
      "# The interpreter this machine's hooks start — a local install fact, never track it " ++
        "(PRD-FIX-155)."),
    ("learnings/pending/",
      "# Write-ahead journal of learnings in flight (raw caller text) — never track it."),
    ("learnings/dead_letter/",
      "# Learnings the store refused, kept aside for the operator — never track them."),
    ("feedback/outbox/", "# Feedback waiting to be sent (submission bodies) — never track it."),
    ("feedback/sent/", "# Feedback already sent (submission bodies) — never track it.")]

def acceptedForms (rule : List Char) : List (List Char) :=
  let bare := rule.rdropWhile (· == '/')
  [rule, bare] ++ [rule, bare].flatMap fun base =>
    ['/' :: base, ".trw/".toList ++ base, "/.trw/".toList ++ base]

/-- A line that spells the rule. -/
def spells (rule line : List Char) : Bool :=
  let stripped := Text.stripChars line
  stripped.head? != some '#' && (acceptedForms rule).contains stripped

def ruleAlreadyPresent (text rule : List Char) : Bool := (linesOf text).any (spells rule)

def missingRules (text : List Char) : List (String × String) :=
  requiredRules.filter fun r => !ruleAlreadyPresent text r.1.toList

def renderRules (pairs : List (String × String)) : List Char :=
  pairs.flatMap fun r => r.2.toList ++ '\n' :: (r.1.toList ++ ['\n'])

/-- The text of the file afterwards; `none` is a missing file. -/
def ensureCredentialsGitignored : Option (List Char) → List Char
  | none => renderRules requiredRules
  | some existing =>
      let missing := missingRules existing
      if missing.isEmpty then existing
      else
        let sep := if existing.getLast? = some '\n' ∨ existing = [] then [] else ['\n']
        existing ++ sep ++ renderRules missing

/-- The path below `.trw/` that a rule is about. -/
def rulePath (rule : List Char) : Path := (rule.rdropWhile (· == '/')).splitOn '/'

def ruleIsDir (rule : List Char) : Bool := rule.getLast? = some '/'

/-! ## The rules as patterns -/

def literalWild : Wild := fun pattern text => decide (pattern = text)

/-- What the lines of a rule are to the reader of the file and to the check. -/
structure LineReads (comment rule : List Char) : Prop where
  comment : comment.head? = some '#' ∧ '\n' ∉ comment
  read : patterns rule = [pattern false rule]
  literal : (pattern false rule).text.any special = false
  oneLine : rule.any isLineBreak = false
  nonempty : rule ≠ []
  spelled : spells rule rule = true
  found : (pattern false rule).matches literalWild (rulePath rule) (ruleIsDir rule) = true

instance (comment rule : List Char) : Decidable (LineReads comment rule) :=
  decidable_of_iff ((comment.head? = some '#' ∧ '\n' ∉ comment) ∧
      patterns rule = [pattern false rule] ∧ (pattern false rule).text.any special = false ∧
      rule.any isLineBreak = false ∧ rule ≠ [] ∧ spells rule rule = true ∧
      (pattern false rule).matches literalWild (rulePath rule) (ruleIsDir rule) = true)
    ⟨fun ⟨h₁, h₂, h₃, h₄, h₅, h₆, h₇⟩ => ⟨h₁, h₂, h₃, h₄, h₅, h₆, h₇⟩,
      fun ⟨h₁, h₂, h₃, h₄, h₅, h₆, h₇⟩ => ⟨h₁, h₂, h₃, h₄, h₅, h₆, h₇⟩⟩

theorem LineReads.of_texts {rule comment : String} {rs cs : List Char}
    (hr : rule = String.ofList rs) (hc : comment = String.ofList cs) (h : LineReads cs rs) :
    LineReads comment.toList rule.toList := by
  rw [hr, hc, String.toList_ofList, String.toList_ofList]
  exact h

theorem LineReads.of_append {rule front back : String} {rs fs bs : List Char}
    (hr : rule = String.ofList rs) (hf : front = String.ofList fs) (hb : back = String.ofList bs)
    (h : LineReads (fs ++ bs) rs) : LineReads (front ++ back).toList rule.toList := by
  rw [hr, hf, hb, String.toList_append, String.toList_ofList, String.toList_ofList,
    String.toList_ofList]
  exact h

theorem requiredRules_read : ∀ r ∈ requiredRules, LineReads r.2.toList r.1.toList := by
  simp only [requiredRules, List.forall_mem_cons]
  refine ⟨.of_append rfl rfl rfl ?_, .of_texts rfl rfl ?_, .of_append rfl rfl rfl ?_,
    .of_append rfl rfl rfl ?_, .of_texts rfl rfl ?_, .of_append rfl rfl rfl ?_,
    .of_texts rfl rfl ?_, .of_texts rfl rfl ?_, .of_texts rfl rfl ?_, .of_texts rfl rfl ?_,
    by simp⟩
  all_goals decide +kernel

/-- The pattern matches neither the path of the rule nor a directory that holds it. -/
def Misses (rule other : List Char) : Prop :=
  (pattern false other).matches literalWild (rulePath rule) (ruleIsDir rule) = false ∧
    ∀ dir ∈ parents (rulePath rule), (pattern false other).matches literalWild dir true = false

instance (rule other : List Char) : Decidable (Misses rule other) :=
  inferInstanceAs (Decidable (_ ∧ _))

theorem requiredRules_apart : ∀ r ∈ requiredRules, ∀ q ∈ requiredRules,
    r = q ∨ Misses r.1.toList q.1.toList := by decide +kernel

section

variable {wild : Wild} {existing : List Char} {rule : String × String}

theorem matches_literal (hwild : LiteralOk wild) {p : Pattern}
    (hp : p.text.any special = false) (path : Path) (isDir : Bool) :
    p.matches wild path isDir = p.matches literalWild path isDir := by
  unfold Pattern.matches literalWild
  rw [hwild _ _ hp, hwild _ _ hp]

theorem parseLine_comment {line : List Char} (h : line.head? = some '#') :
    parseLine line = none := by
  obtain ⟨cs, rfl⟩ : ∃ cs, line = '#' :: cs := by
    cases line with
    | nil => cases h
    | cons c cs => exact ⟨cs, by rw [Option.some.inj h]⟩
  obtain ⟨ds, hds⟩ : ∃ ds, dropReturn ('#' :: cs) = '#' :: ds := by
    unfold dropReturn
    split
    · next hlast =>
        cases cs with
        | nil => cases hlast
        | cons c cs => exact ⟨_, rfl⟩
    · exact ⟨cs, rfl⟩
  have htrim : trimSpaces ('#' :: ds) [] = '#' :: trimSpaces ds [] := by
    rw [trimSpaces]
    · rfl
    · rintro ⟨⟩
    · rintro c rest ⟨⟩
  rw [parseLine, hds, htrim]
  rfl

theorem patterns_comment {line : List Char} (h : line.head? = some '#' ∧ '\n' ∉ line) :
    patterns line = [] := by
  rw [patterns, List.splitOn_eq_singleton h.2]
  simp [parseLine_comment h.1]

theorem patterns_renderRules {pairs : List (String × String)}
    (h : ∀ r ∈ pairs, LineReads r.2.toList r.1.toList) :
    patterns (renderRules pairs) = pairs.map fun r => pattern false r.1.toList := by
  induction pairs with
  | nil => rfl
  | cons r rest ih =>
      have hr := h r List.mem_cons_self
      have htext : renderRules (r :: rest) =
          r.2.toList ++ '\n' :: (r.1.toList ++ '\n' :: renderRules rest) := by
        simp [renderRules]
      rw [htext, patterns_append_line, patterns_append_line, patterns_comment hr.comment, hr.read,
        ih fun q hq => h q (List.mem_cons_of_mem _ hq)]
      rfl

/-! ## The text afterwards -/

theorem missingRules_subset {r : String × String} (h : r ∈ missingRules existing) :
    r ∈ requiredRules ∧ ruleAlreadyPresent existing r.1.toList = false := by
  have := List.mem_filter.mp h
  simpa using this

theorem ensure_eq (existing : List Char) : ∃ sep,
    ensureCredentialsGitignored (some existing) =
      existing ++ sep ++ renderRules (missingRules existing) ∧
    (sep = [] ∧ (existing.getLast? = some '\n' ∨ existing = [] ∨ missingRules existing = []) ∨
      sep = ['\n']) := by
  unfold ensureCredentialsGitignored
  dsimp only
  split
  · next hnone =>
      have hnil := List.isEmpty_iff.mp hnone
      exact ⟨[], by simp [hnil, renderRules], .inl ⟨rfl, .inr (.inr hnil)⟩⟩
  · refine ⟨_, rfl, ?_⟩
    split
    · next hend => exact .inl ⟨rfl, hend.imp_right .inl⟩
    · exact .inr rfl

theorem patterns_ensure (existing : List Char) :
    patterns (ensureCredentialsGitignored (some existing)) =
      patterns existing ++ (missingRules existing).map fun r => pattern false r.1.toList := by
  have hread := patterns_renderRules fun r hr =>
    requiredRules_read r (@missingRules_subset existing r hr).1
  obtain ⟨sep, htext, hsep⟩ := ensure_eq existing
  rw [htext]
  rcases hsep with ⟨rfl, hend | rfl | hnone⟩ | rfl
  · obtain ⟨front, rfl⟩ := List.getLast?_eq_some_iff.mp hend
    have hfront : patterns (front ++ ['\n']) = patterns front := by
      rw [patterns_append_line]
      simp [patterns_nil]
    rw [List.append_nil, hfront, ← hread, ← patterns_append_line]
    simp
  · rw [← hread]
    rfl
  · rw [hnone]
    simp [renderRules]
  · rw [List.append_assoc, List.singleton_append, patterns_append_line, hread]

theorem ignored_of_missing (hwild : LiteralOk wild) (h : rule ∈ missingRules existing) :
    ignored wild (patterns (ensureCredentialsGitignored (some existing)))
      (rulePath rule.1.toList) (ruleIsDir rule.1.toList) = true := by
  rw [patterns_ensure]
  have hreads := requiredRules_read rule (missingRules_subset h).1
  refine ignored_append_of_matches ?_ ⟨_, List.mem_map_of_mem h, ?_⟩
  · intro q hq
    obtain ⟨r, -, rfl⟩ := List.mem_map.mp hq
    rfl
  · rw [matches_literal hwild hreads.literal]
    exact hreads.found

theorem ignored_of_present (hwild : LiteralOk wild) (hrule : rule ∈ requiredRules)
    (h : ruleAlreadyPresent existing rule.1.toList = true) :
    ignored wild (patterns (ensureCredentialsGitignored (some existing)))
        (rulePath rule.1.toList) (ruleIsDir rule.1.toList) =
      ignored wild (patterns existing) (rulePath rule.1.toList) (ruleIsDir rule.1.toList) := by
  rw [patterns_ensure]
  have hmisses : ∀ r ∈ missingRules existing, Misses rule.1.toList r.1.toList := by
    intro r hr
    obtain ⟨hrequired, habsent⟩ := missingRules_subset hr
    refine (requiredRules_apart rule hrule r hrequired).resolve_left ?_
    rintro rfl
    rw [h] at habsent
    cases habsent
  have hliteral : ∀ r ∈ missingRules existing,
      (pattern false r.1.toList).text.any special = false := fun r hr =>
    (requiredRules_read r (missingRules_subset hr).1).literal
  refine ignored_append_of_not_matches ?_ ?_
  · intro q hq
    obtain ⟨r, hr, rfl⟩ := List.mem_map.mp hq
    rw [matches_literal hwild (hliteral r hr)]
    exact (hmisses r hr).1
  · intro dir hdir q hq
    obtain ⟨r, hr, rfl⟩ := List.mem_map.mp hq
    rw [matches_literal hwild (hliteral r hr)]
    exact (hmisses r hr).2 dir hdir

end

/-! ## Lines that stay -/

theorem splitLines_feed (cs : List Char) : splitLines ('\n' :: cs) = ([], linesOf cs) := by
  rw [splitLines_char (by simp), if_pos (by decide)]

theorem linesOf_prefix {a t : List Char}
    (h : a = [] ∨ a.getLast? = some '\n' ∨ t = [] ∨ t.head? = some '\n') :
    linesOf a <+: linesOf (a ++ t) := by
  induction hn : a.length using Nat.strong_induction_on generalizing a with
  | _ n ih =>
    rcases a with - | ⟨c, cs⟩
    · exact List.nil_prefix
    · rw [linesOf_ne (by simp), List.cons_append, linesOf_ne (by simp)]
      rcases cs with - | ⟨d, ds⟩
      · -- the last character, with what follows it
        rcases h with h | h | rfl | h
        · cases h
        · obtain rfl : c = '\n' := by simpa using h
          rw [List.nil_append, splitLines_feed, splitLines_feed]
          exact (List.prefix_cons_inj []).mpr List.nil_prefix
        · simp
        · obtain ⟨rest, rfl⟩ : ∃ rest, t = '\n' :: rest := by
            cases t with
            | nil => cases h
            | cons d rest => exact ⟨rest, by rw [Option.some.inj h]⟩
          rw [List.nil_append, splitLines_char (by simp)]
          by_cases hreturn : c = '\r'
          · subst hreturn
            rw [splitLines_crlf, if_pos (by decide)]
            exact (List.prefix_cons_inj []).mpr List.nil_prefix
          · rw [splitLines_char fun _ h _ => hreturn h]
            split
            · exact (List.prefix_cons_inj []).mpr List.nil_prefix
            · rw [splitLines_feed]
              exact (List.prefix_cons_inj [c]).mpr List.nil_prefix
      · have hlast : d :: ds = [] ∨ (d :: ds).getLast? = some '\n' ∨ t = [] ∨
            t.head? = some '\n' := by
          rcases h with h | h | h
          · cases h
          · exact .inr (.inl (by simpa using h))
          · exact .inr (.inr h)
        by_cases hcrlf : c = '\r' ∧ d = '\n'
        · obtain ⟨rfl, rfl⟩ := hcrlf
          rw [List.cons_append, splitLines_crlf, splitLines_crlf, List.prefix_cons_inj]
          rcases ds with - | ⟨e, es⟩
          · exact List.nil_prefix
          · refine ih (e :: es).length (by simp at hn ⊢; omega) ?_ rfl
            exact .inr (by simpa using hlast)
        · have hkeep := ih (d :: ds).length (by simp at hn ⊢; omega) hlast rfl
          rw [@splitLines_char c (d :: ds) fun rest hc hcs => hcrlf ⟨hc, (List.cons.inj hcs).1⟩,
            @splitLines_char c (d :: ds ++ t) fun rest hc hcs => hcrlf ⟨hc, (List.cons.inj hcs).1⟩]
          split
          · exact (List.prefix_cons_inj []).mpr hkeep
          · rw [linesOf_ne (by simp), linesOf_ne (by simp), List.cons_prefix_cons] at hkeep
            rw [List.cons_prefix_cons]
            exact ⟨by rw [hkeep.1], hkeep.2⟩

theorem linesOf_subset (a b : List Char) : linesOf b ⊆ (splitLines (a ++ '\n' :: b)).2 := by
  induction hn : a.length using Nat.strong_induction_on generalizing a with
  | _ n ih =>
    rcases a with - | ⟨c, cs⟩
    · rw [List.nil_append, splitLines_feed]
      exact List.Subset.refl _
    · have hrest := ih cs.length (by simp at hn; omega) cs rfl
      rw [List.cons_append]
      by_cases hcrlf : ∃ rest, c = '\r' ∧ cs ++ '\n' :: b = '\n' :: rest
      · obtain ⟨rest, rfl, hfeed⟩ := hcrlf
        rw [hfeed, splitLines_crlf]
        rcases cs with - | ⟨d, ds⟩
        · rw [(List.cons.inj hfeed).2]
          exact List.Subset.refl _
        · have hds := ih ds.length (by simp at hn; omega) ds rfl
          rw [← (List.cons.inj hfeed).2]
          exact List.Subset.trans hds (splitLines_subset (by simp))
      · rw [splitLines_char fun rest hc hcs => hcrlf ⟨rest, hc, hcs⟩]
        split
        · exact List.Subset.trans hrest (splitLines_subset (by simp))
        · exact hrest

theorem mem_linesOf_line {line : List Char} (h : line.any isLineBreak = false) (b : List Char) :
    line ∈ linesOf (line ++ '\n' :: b) := by
  have hsplit : (splitLines (line ++ '\n' :: b)).1 = line := by
    induction line with
    | nil => rw [List.nil_append, splitLines_feed]
    | cons c cs ih =>
        rw [List.any_cons, Bool.or_eq_false_iff] at h
        have hreturn : c ≠ '\r' := by
          rintro rfl
          exact absurd h.1 (by decide)
        rw [List.cons_append, splitLines_char fun _ hc _ => hreturn hc, h.1]
        simp [ih h.2]
  rw [linesOf_ne (by simp), hsplit]
  exact List.mem_cons_self

section

variable {existing : List Char}

theorem linesOf_ensure (existing : List Char) :
    linesOf existing <+: linesOf (ensureCredentialsGitignored (some existing)) := by
  obtain ⟨sep, htext, hsep⟩ := ensure_eq existing
  rw [htext, List.append_assoc]
  refine linesOf_prefix ?_
  rcases hsep with ⟨rfl, hend | hnil | hnone⟩ | rfl
  · exact .inr (.inl hend)
  · exact .inl hnil
  · rw [hnone]
    exact .inr (.inr (.inl rfl))
  · exact .inr (.inr (.inr rfl))

theorem missingRules_ensure (existing : List Char) :
    missingRules (ensureCredentialsGitignored (some existing)) = [] := by
  rw [missingRules, List.filter_eq_nil_iff]
  intro r hr
  have hreads := requiredRules_read r hr
  suffices h : ∃ line ∈ linesOf (ensureCredentialsGitignored (some existing)),
      spells r.1.toList line = true by
    simpa [ruleAlreadyPresent] using h
  by_cases hpresent : ruleAlreadyPresent existing r.1.toList = true
  · obtain ⟨line, hline, hspells⟩ := List.any_eq_true.mp hpresent
    exact ⟨line, (linesOf_ensure existing).subset hline, hspells⟩
  · have hmissing : r ∈ missingRules existing :=
      List.mem_filter.mpr ⟨hr, by simpa using hpresent⟩
    obtain ⟨front, back, hsplit⟩ := List.append_of_mem hmissing
    obtain ⟨sep, htext, -⟩ := ensure_eq existing
    have hlines : ensureCredentialsGitignored (some existing) =
        (existing ++ sep ++ renderRules front ++ r.2.toList) ++
          '\n' :: (r.1.toList ++ '\n' :: renderRules back) := by
      rw [htext, hsplit]
      simp [renderRules]
    refine ⟨r.1.toList, ?_, hreads.spelled⟩
    rw [hlines, linesOf_ne (by simp)]
    exact List.mem_cons_of_mem _ (linesOf_subset _ _ (mem_linesOf_line hreads.oneLine _))

theorem ensure_again (existing : List Char) :
    ensureCredentialsGitignored (some (ensureCredentialsGitignored (some existing))) =
      ensureCredentialsGitignored (some existing) := by
  generalize hfinal : ensureCredentialsGitignored (some existing) = final
  have hnone : missingRules final = [] := by
    rw [← hfinal]
    exact missingRules_ensure existing
  unfold ensureCredentialsGitignored
  simp [hnone]

end

/-! ## When the secrets are ignored -/

/-- The path of every rule is ignored. -/
def SecretsIgnored (wild : Wild) (text : List Char) : Prop :=
  ∀ r ∈ requiredRules,
    ignored wild (patterns text) (rulePath r.1.toList) (ruleIsDir r.1.toList) = true

/-- The run keeps the lines there were, changes nothing when it runs again, and leaves every
required path ignored. -/
structure Ensures (wild : Wild) (existing : List Char) : Prop where
  kept : existing <+: ensureCredentialsGitignored (some existing) ∧
    linesOf existing <+: linesOf (ensureCredentialsGitignored (some existing))
  again : ensureCredentialsGitignored (some (ensureCredentialsGitignored (some existing))) =
    ensureCredentialsGitignored (some existing)
  secrets : SecretsIgnored wild (ensureCredentialsGitignored (some existing))

theorem existing_kept (existing : List Char) :
    existing <+: ensureCredentialsGitignored (some existing) := by
  obtain ⟨sep, htext, -⟩ := ensure_eq existing
  rw [htext, List.append_assoc]
  exact List.prefix_append _ _

/-- The secrets are ignored afterwards exactly when each rule some line spells was in force
before: the spelling is one the file takes for the path, and no later line takes it back. -/
theorem ensure_gitignored {wild : Wild} (hwild : LiteralOk wild) (existing : List Char) :
    Ensures wild existing ↔
      ∀ r ∈ requiredRules, ruleAlreadyPresent existing r.1.toList = true →
        ignored wild (patterns existing) (rulePath r.1.toList) (ruleIsDir r.1.toList) = true := by
  constructor
  · intro h r hr hpresent
    rw [← ignored_of_present hwild hr hpresent]
    exact h.secrets r hr
  · intro h
    refine ⟨⟨existing_kept existing, linesOf_ensure existing⟩, ensure_again existing, ?_⟩
    intro r hr
    by_cases hpresent : ruleAlreadyPresent existing r.1.toList = true
    · rw [ignored_of_present hwild hr hpresent]
      exact h r hr hpresent
    · exact ignored_of_missing hwild (List.mem_filter.mpr ⟨hr, by simpa using hpresent⟩)

theorem literalWild_ok : LiteralOk literalWild := fun _ _ _ => rfl

/-- A file whose one line is a user's own pattern ends with every secret ignored. -/
theorem ensure_gitignored_sample :
    Ensures literalWild "logs/\n".toList := by
  refine (ensure_gitignored literalWild_ok _).mpr ?_
  decide +kernel

/-- A rule spelled with the path of the directory the file is in counts as there, and the
credentials stay visible. -/
theorem spelled_and_visible : ¬Ensures literalWild ".trw/credentials.yaml\n".toList := by
  intro h
  have hrule : requiredRules.head (by decide) ∈ requiredRules := List.head_mem _
  have hvisible := h.secrets _ hrule
  rw [ignored_of_present literalWild_ok hrule (by decide +kernel)] at hvisible
  exact absurd hvisible (by decide +kernel)

end TrwMcp.Bootstrap
