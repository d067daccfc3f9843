import TrwMcp.Lib.Text
import TrwMcp.Lib.Except

/-!
# Owned path globs

`normaliseGlob` checks a glob and rewrites it in one pass: it strips blanks, then one `./`, then
the trailing slashes. What it returns is a glob it accepts as it stands for most inputs, not for
all of them: `normaliseGlob_again` says for which.
-/

namespace TrwMcp.Formation

open Lib Lib.Text Lib.Regex

/-- The refusals of the manifest's validators. -/
inductive FormationError where
  | globEmpty
  | globControl (text : String)
  | globAbsolute (text : String)
  | globHome (text : String)
  | globEscapes (text : String)
  | invalidId (field value : String)
  | invalidPrdId (item : String)
  | tooSmall (field : String) (value : Int)
  | duplicateMember (memberId : String)
  | sharedGlob (field glob previous memberId : String)
  | sharedPrd (prdId previous memberId : String)
  | refused (reason : String)
  deriving DecidableEq

/-- The refusal's text; `repr` is `{value!r}`. -/
def FormationError.message (repr : String → String) : FormationError → String
  | .globEmpty => "owned path glob is empty"
  | .globControl text => "owned path glob contains a control character: " ++ repr text
  | .globAbsolute text => "owned path glob must be repo-relative, not absolute: " ++ repr text
  | .globHome text => "owned path glob must be repo-relative, not home-relative: " ++ repr text
  | .globEscapes text => "owned path glob escapes the project root: " ++ repr text
  | .invalidId field value =>
      field ++ " must match '^[A-Za-z0-9][A-Za-z0-9._-]\x7b0,63\x7d$'; got " ++ repr value
  | .invalidPrdId item => "prd_ids entry must look like PRD-CATEGORY-NNN; got " ++ repr item
  | .tooSmall field value =>
      field ++ ": input should be greater than or equal to 1; got " ++ toString value
  | .duplicateMember memberId => "duplicate member_id " ++ repr memberId
  | .sharedGlob field glob previous memberId =>
      field ++ " glob " ++ repr glob ++ " is claimed by both " ++ repr previous ++ " and " ++
        repr memberId ++ "; one glob may belong to one member"
  | .sharedPrd prdId previous memberId =>
      "prd_ids entry " ++ repr prdId ++ " is allocated to both " ++ repr previous ++ " and " ++
        repr memberId ++ "; an identifier block may belong to one member"
  | .refused reason => reason

def isControl (c : Char) : Bool := c == '\n' || c == '\r' || c == '\x00'

/-- What `normalise_glob` does to the characters of the stripped text. -/
def rewriteGlob (text : List Char) : List Char := rstripChars (removeLead ['.', '/'] text)

def escapes (cleaned : List Char) : Bool := (cleaned.splitOn '/').any (· == ['.', '.'])

def normaliseGlob (raw : String) : Except FormationError String :=
  let text := stripChars raw.toList
  let shown := String.ofList text
  let cleaned := removeLead ['.', '/'] text
  if text.isEmpty then .error .globEmpty
  else if text.any isControl then .error (.globControl shown)
  else if text.head? == some '/' || text[1]? == some ':' then .error (.globAbsolute shown)
  else if text.head? == some '~' then .error (.globHome shown)
  else if escapes cleaned then .error (.globEscapes shown)
  else .ok (String.ofList (rstripChars cleaned))

/-- A stripped text `normalise_glob` accepts. -/
structure Acceptable (text : List Char) : Prop where
  nonempty : text ≠ []
  control : ∀ c ∈ text, isControl c = false
  slash : text.head? ≠ some '/'
  colon : text[1]? ≠ some ':'
  home : text.head? ≠ some '~'
  dots : escapes (removeLead ['.', '/'] text) = false

theorem normaliseGlob_eq_ok {raw g : String} :
    normaliseGlob raw = .ok g ↔
      Acceptable (stripChars raw.toList) ∧ g.toList = rewriteGlob (stripChars raw.toList) := by
  generalize htext : stripChars raw.toList = text
  simp only [normaliseGlob, htext]
  constructor
  · intro h
    split_ifs at h with h1 h2 h3 h4 h5
    obtain rfl := Except.ok.inj h
    simp only [Bool.not_eq_true, Bool.or_eq_false_iff, beq_eq_false_iff_ne] at h3 h4 h5
    refine ⟨⟨by simpa using h1, ?_, h3.1, h3.2, h4, h5⟩, String.toList_ofList⟩
    simpa using h2
  · rintro ⟨hok, hg⟩
    have hcontrol : text.any isControl = false := by simpa using hok.control
    have hempty : text.isEmpty = false := by simpa using hok.nonempty
    have hslash : (text.head? == some '/') = false := beq_eq_false_iff_ne.mpr hok.slash
    have hcolon : (text[1]? == some ':') = false := beq_eq_false_iff_ne.mpr hok.colon
    have hhome : (text.head? == some '~') = false := beq_eq_false_iff_ne.mpr hok.home
    rw [← String.ofList_toList (s := g), hg]
    simp [hempty, hcontrol, hslash, hcolon, hhome, hok.dots, rewriteGlob]

/-! ## A glob that reads back as itself -/

theorem rstripChars_spec (cs : List Char) :
    ∃ n, cs = rstripChars cs ++ List.replicate n '/' ∧ (rstripChars cs).getLast? ≠ some '/' := by
  induction cs using List.reverseRecOn with
  | nil => exact ⟨0, by simp [rstripChars]⟩
  | append_singleton cs c ih =>
      by_cases hc : c = '/'
      · subst hc
        obtain ⟨n, hcs, hlast⟩ := ih
        have hstep : rstripChars (cs ++ ['/']) = rstripChars cs := by
          simp [rstripChars]
        refine ⟨n + 1, ?_, hstep ▸ hlast⟩
        rw [hstep, List.replicate_succ', ← List.append_assoc, ← hcs]
      · have hstep : rstripChars (cs ++ [c]) = cs ++ [c] := by
          rw [rstripChars, List.rdropWhile_concat_neg]
          simpa using hc
        exact ⟨0, by simp [hstep], by simpa [hstep] using hc⟩

/-- A glob its validator returns unchanged. -/
structure Steady (g : List Char) : Prop extends Acceptable g where
  blankHead : ∀ c ∈ g.head?, Regex.isSpace c = false
  blankLast : ∀ c ∈ g.getLast?, Regex.isSpace c = false
  lead : ¬ ['.', '/'] <+: g
  trail : g.getLast? ≠ some '/'

theorem removeLead_self_iff {lead cs : List Char} (hlead : lead ≠ []) :
    removeLead lead cs = cs ↔ ¬ lead <+: cs := by
  unfold removeLead
  by_cases h : lead <+: cs
  · obtain ⟨rest, rfl⟩ := h
    simp only [ List.isPrefixOf_iff_prefix, List.prefix_append, if_true, List.drop_left, not_true]
    simpa using hlead
  · simp [h]

theorem rstripChars_self_iff {cs : List Char} :
    rstripChars cs = cs ↔ cs.getLast? ≠ some '/' := by
  rw [rstripChars, List.rdropWhile_eq_self_iff]
  cases cs using List.reverseRecOn with
  | nil => simp
  | append_singleton cs c => simp

theorem steady_iff {g : String} : normaliseGlob g = .ok g ↔ Steady g.toList := by
  rw [normaliseGlob_eq_ok]
  generalize g.toList = cs
  constructor
  · rintro ⟨hok, hcs⟩
    have hstrip := (stripChars_within cs).length_le
    have hlead := (removeLead_suffix ['.', '/'] (stripChars cs)).length_le
    have htrail : (rewriteGlob (stripChars cs)).length ≤
        (removeLead ['.', '/'] (stripChars cs)).length := (rdropWhile_initial _).length_le
    rw [← hcs] at htrail
    -- three rewrites that together lose nothing lose nothing each
    have h1 : stripChars cs = cs := (stripChars_within cs).eq_of_length (by omega)
    have h2 : removeLead ['.', '/'] cs = cs := by
      have := (removeLead_suffix ['.', '/'] (stripChars cs)).eq_of_length (by omega)
      rwa [h1] at this
    have h3 : rstripChars cs = cs := by
      rw [rewriteGlob, h1, h2] at hcs
      exact hcs.symm
    obtain ⟨hhead, hlast⟩ := stripChars_eq_self.mp h1
    exact { toAcceptable := h1 ▸ hok, blankHead := hhead, blankLast := hlast,
            lead := (removeLead_self_iff (by simp)).mp h2, trail := rstripChars_self_iff.mp h3 }
  · intro h
    have h1 : stripChars cs = cs := stripChars_eq_self.mpr ⟨h.blankHead, h.blankLast⟩
    have h2 : removeLead ['.', '/'] cs = cs := (removeLead_self_iff (by simp)).mpr h.lead
    have h3 : rstripChars cs = cs := rstripChars_self_iff.mpr h.trail
    rw [h1]
    exact ⟨h.toAcceptable, by rw [rewriteGlob, h2, h3]⟩

/-! ## Which globs settle -/

/-- What may follow one leading `./`. -/
structure SettledAfter (rest : List Char) : Prop where
  nonempty : rest ≠ []
  slash : rest.head? ≠ some '/'
  home : rest.head? ≠ some '~'
  blank : ∀ c ∈ rest.head?, Regex.isSpace c = false
  colon : rest[1]? ≠ some ':'
  lead : ∀ more, rest = '.' :: '/' :: more → ∀ c ∈ more, c = '/'

/-- No blank stands right before the trailing slashes. -/
def NoBlankBeforeSlashes (text : List Char) : Prop :=
  ∀ body c n, text = body ++ c :: List.replicate (n + 1) '/' → Regex.isSpace c = false

/-- The texts whose rewriting is final. -/
structure Settled (text : List Char) : Prop where
  trail : NoBlankBeforeSlashes text
  after : ∀ rest, text = '.' :: '/' :: rest → SettledAfter rest

theorem escapes_append_slashes {g : List Char} {n : Nat}
    (h : escapes (g ++ List.replicate n '/') = false) : escapes g = false := by
  cases n with
  | zero => simpa using h
  | succ n =>
      rw [List.replicate_succ, escapes, List.splitOn_append_cons_self, List.any_append,
        Bool.or_eq_false_iff] at h
      exact h.1

theorem rstripChars_append_slashes (cs : List Char) (n : Nat) :
    rstripChars (cs ++ List.replicate n '/') = rstripChars cs := by
  induction n with
  | zero => simp
  | succ n ih =>
      rw [List.replicate_succ', ← List.append_assoc, rstripChars, List.rdropWhile_concat_pos]
      · exact ih
      · rfl

theorem noBlankBeforeSlashes_iff {g : List Char} {n : Nat} (hg : g.getLast? ≠ some '/') :
    NoBlankBeforeSlashes (g ++ List.replicate n '/') ↔
      n = 0 ∨ ∀ c ∈ g.getLast?, Regex.isSpace c = false := by
  constructor
  · intro h
    cases n with
    | zero => exact .inl rfl
    | succ n =>
        right
        intro c hc
        obtain ⟨body, rfl⟩ := List.getLast?_eq_some_iff.mp hc
        exact h body c n (by simp)
  · intro h body c m heq
    by_contra hspace
    have hslash : c ≠ '/' := by
      rintro rfl
      exact hspace (by decide)
    have hbody : g = body ++ [c] := by
      have hcut := congrArg rstripChars heq
      rw [show body ++ c :: List.replicate (m + 1) '/' =
          (body ++ [c]) ++ List.replicate (m + 1) '/' by simp, rstripChars_append_slashes,
        rstripChars_append_slashes, rstripChars_self_iff.mpr hg] at hcut
      rw [hcut, rstripChars_self_iff]
      simpa using hslash
    subst hbody
    rcases h with rfl | h
    · have := congrArg List.length heq
      simp at this
    · exact hspace (h c (by simp))

theorem second_append_slashes {g : List Char} {n : Nat} {c : Char} (hc : c ≠ '/') :
    (g ++ List.replicate n '/')[1]? = some c ↔ g[1]? = some c := by
  match g with
  | [] => rcases n with _ | _ | n <;> simp [List.replicate_succ, hc.symm]
  | [d] => cases n <;> simp [List.replicate_succ, hc.symm]
  | d :: e :: g => simp

theorem blankLast_append_slashes {g : List Char} {n : Nat}
    (hblank : ∀ c ∈ (g ++ List.replicate n '/').getLast?, Regex.isSpace c = false)
    (h : n = 0 ∨ ∀ c ∈ g.getLast?, Regex.isSpace c = false) :
    ∀ c ∈ g.getLast?, Regex.isSpace c = false := by
  rcases h with rfl | h
  · simpa using hblank
  · exact h

theorem steady_of_plain {g : List Char} {n : Nat} (hok : Acceptable (g ++ List.replicate n '/'))
    (hstrip : stripChars (g ++ List.replicate n '/') = g ++ List.replicate n '/')
    (hlead : ¬ ['.', '/'] <+: g ++ List.replicate n '/') (hg : g.getLast? ≠ some '/') :
    Steady g ↔ Settled (g ++ List.replicate n '/') := by
  obtain ⟨hblankHead, hblankLast⟩ := stripChars_eq_self.mp hstrip
  have hdots := hok.dots
  rw [(removeLead_self_iff (by simp)).mpr hlead] at hdots
  have hne : g ≠ [] := by
    rintro rfl
    have hslash := hok.slash
    have hnonempty := hok.nonempty
    cases n <;> simp [List.replicate_succ] at hslash hnonempty
  have hhead : (g ++ List.replicate n '/').head? = g.head? := by
    cases g with
    | nil => exact absurd rfl hne
    | cons c g => rfl
  have hleadg : ¬ ['.', '/'] <+: g := fun h => hlead (h.trans (List.prefix_append _ _))
  constructor
  · intro h
    refine ⟨(noBlankBeforeSlashes_iff hg).mpr (.inr h.blankLast), ?_⟩
    intro rest hrest
    exact absurd ⟨rest, hrest.symm⟩ hlead
  · intro h
    have hlast := blankLast_append_slashes hblankLast
      ((noBlankBeforeSlashes_iff hg).mp h.trail)
    refine { nonempty := hne, control := ?_, slash := hhead ▸ hok.slash, colon := ?_,
             home := hhead ▸ hok.home, dots := ?_, blankHead := hhead ▸ hblankHead,
             blankLast := hlast, lead := hleadg, trail := hg }
    · intro c hc
      exact hok.control c (List.mem_append_left _ hc)
    · intro hcolon
      exact hok.colon ((second_append_slashes (by decide)).mpr hcolon)
    · rw [(removeLead_self_iff (by simp)).mpr hleadg]
      exact escapes_append_slashes hdots

theorem steady_of_lead {g : List Char} {n : Nat}
    (hok : Acceptable ('.' :: '/' :: (g ++ List.replicate n '/')))
    (hblank : ∀ c ∈ ('.' :: '/' :: (g ++ List.replicate n '/')).getLast?, Regex.isSpace c = false)
    (hg : g.getLast? ≠ some '/') :
    Steady g ↔ Settled ('.' :: '/' :: (g ++ List.replicate n '/')) := by
  have hdots := hok.dots
  rw [show removeLead ['.', '/'] ('.' :: '/' :: (g ++ List.replicate n '/')) =
    g ++ List.replicate n '/' by simp [removeLead]] at hdots
  by_cases hne : g = []
  · subst hne
    constructor
    · intro h
      exact absurd rfl h.nonempty
    · intro h
      have hafter := h.after _ rfl
      have hslash := hafter.slash
      have hnonempty := hafter.nonempty
      cases n <;> simp [List.replicate_succ] at hslash hnonempty
  have hhead : (g ++ List.replicate n '/').head? = g.head? := by
    cases g with
    | nil => exact absurd rfl hne
    | cons c g => rfl
  have hlastEq : ('.' :: '/' :: g).getLast? = g.getLast? := by
    cases g with
    | nil => exact absurd rfl hne
    | cons c g => simp
  have htrail : NoBlankBeforeSlashes ('.' :: '/' :: (g ++ List.replicate n '/')) ↔
      n = 0 ∨ ∀ c ∈ g.getLast?, Regex.isSpace c = false := by
    have := @noBlankBeforeSlashes_iff ('.' :: '/' :: g) n (by rwa [hlastEq])
    rwa [hlastEq] at this
  constructor
  · intro h
    refine ⟨htrail.mpr (.inr h.blankLast), ?_⟩
    rintro rest hrest
    obtain rfl : g ++ List.replicate n '/' = rest := by simpa using hrest
    refine { nonempty := by simp [hne], slash := hhead ▸ h.slash, home := hhead ▸ h.home,
             blank := hhead ▸ h.blankHead, colon := ?_, lead := ?_ }
    · intro hcolon
      exact h.colon ((second_append_slashes (by decide)).mp hcolon)
    · intro more hmore c hc
      match g, hne, h.lead, hmore with
      | [d], _, _, hmore =>
          have hslashes : List.replicate n '/' = '/' :: more := (List.cons.inj hmore).2
          exact List.eq_of_mem_replicate (hslashes ▸ List.mem_cons_of_mem _ hc)
      | d :: e :: g, _, hlead, hmore =>
          simp only [List.cons_append, List.cons.injEq] at hmore
          obtain ⟨rfl, rfl, -⟩ := hmore
          exact absurd ⟨g, rfl⟩ hlead
  · intro h
    have hafter := h.after _ rfl
    have hleadg : ¬ ['.', '/'] <+: g := by
      rintro ⟨more, rfl⟩
      have hmore := hafter.lead (more ++ List.replicate n '/') (by simp)
      refine hg ?_
      rw [List.getLast?_append]
      cases hlast : more.getLast? with
      | none => rfl
      | some c =>
          rw [hmore c (List.mem_append_left _ (List.mem_of_getLast? hlast))]
          rfl
    have hlast : ∀ c ∈ g.getLast?, Regex.isSpace c = false := by
      rcases htrail.mp h.trail with rfl | hlast
      · simpa [hlastEq] using hblank
      · exact hlast
    refine { nonempty := hne, control := ?_, slash := hhead ▸ hafter.slash, colon := ?_,
             home := hhead ▸ hafter.home, dots := ?_, blankHead := hhead ▸ hafter.blank,
             blankLast := hlast, lead := hleadg, trail := hg }
    · intro c hc
      exact hok.control c (by simp [hc])
    · intro hcolon
      exact hafter.colon ((second_append_slashes (by decide)).mpr hcolon)
    · rw [(removeLead_self_iff (by simp)).mpr hleadg]
      exact escapes_append_slashes hdots

theorem steady_rewrite_iff {text : List Char} (hok : Acceptable text)
    (hstrip : stripChars text = text) : Steady (rewriteGlob text) ↔ Settled text := by
  obtain ⟨n, hcut, hg⟩ := rstripChars_spec (removeLead ['.', '/'] text)
  change _ = rewriteGlob text ++ _ at hcut
  change (rewriteGlob text).getLast? ≠ _ at hg
  generalize rewriteGlob text = g at hcut hg ⊢
  by_cases hlead : ['.', '/'] <+: text
  · obtain ⟨rest, rfl⟩ := hlead
    have hrest : removeLead ['.', '/'] (['.', '/'] ++ rest) = rest := by
      simp [removeLead]
    rw [hrest] at hcut
    subst hcut
    exact steady_of_lead hok (stripChars_eq_self.mp hstrip).2 hg
  · rw [(removeLead_self_iff (by simp)).mpr hlead] at hcut
    subst hcut
    exact steady_of_plain hok hstrip hlead hg

/-- A glob is validated to something that validates again as itself exactly where its text
settles. -/
theorem normaliseGlob_again {raw g : String} (h : normaliseGlob raw = .ok g) :
    normaliseGlob g = .ok g ↔ Settled (stripChars raw.toList) := by
  obtain ⟨hok, hg⟩ := normaliseGlob_eq_ok.mp h
  rw [steady_iff, hg]
  exact steady_rewrite_iff hok (stripChars_idem _)

end TrwMcp.Formation
