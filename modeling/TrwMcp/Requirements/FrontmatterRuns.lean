import TrwMcp.Requirements.Frontmatter
import TrwMcp.Lib.Spread

/-!
# What an update of the frontmatter changes

* `match_written` — the text that is written is split where it was put together.
* `lookup_flatten` — which of two places of a field is read.
* `updated_iff` — an update changes what it was asked to exactly when no field it updates stands at
  the top level beside a nested map, it makes no nested map of its own, and the body has no carriage
  return.
-/

namespace TrwMcp.Requirements.Frontmatter

open Lib Regex

/-! ## Text mode -/

theorem readText_cons {c : Char} (hc : c ≠ '\r') (cs : List Char) :
    readText (c :: cs) = c :: readText cs := by
  rw [readText]
  · simp_all
  · simp_all

theorem readText_append {front : List Char} (h : '\r' ∉ front) (rest : List Char) :
    readText (front ++ rest) = front ++ readText rest := by
  induction front with
  | nil => rfl
  | cons c front ih =>
      rw [List.mem_cons, not_or] at h
      rw [List.cons_append, readText_cons (Ne.symm h.1), ih h.2, List.cons_append]

theorem readText_eq_self {cs : List Char} (h : '\r' ∉ cs) : readText cs = cs := by
  have happend := readText_append h []
  rwa [List.append_nil, readText, List.append_nil] at happend

theorem not_mem_readText (cs : List Char) : '\r' ∉ readText cs := by
  fun_induction readText cs <;> simp_all [eq_comm]

/-! ## The delimiters -/

theorem closing_append {block : List Char} (hinside : ¬ ('\n' :: dashes) <:+: block)
    (body : List Char) : closing (block ++ ('\n' :: dashes ++ body)) = some (block, body) := by
  induction block with
  | nil => simp [closing, dashes]
  | cons c block ih =>
      have hrest : ¬ ('\n' :: dashes) <:+: block := fun h => hinside (h.trans (List.infix_cons block.infix_refl))
      have hhere : ¬ ('\n' :: dashes).isPrefixOf (c :: (block ++ ('\n' :: dashes ++ body))) = true := by
        intro h
        rw [List.isPrefixOf_iff_prefix] at h
        match block with
        | [] => simp [dashes] at h
        | [a] => simp [dashes] at h
        | [a, b] => simp [dashes] at h
        | a :: b :: d :: block =>
            refine hinside (List.IsPrefix.isInfix ?_)
            simpa [dashes] using h
      rw [List.cons_append, closing, if_neg hhere, ih hrest]
      rfl

theorem match_written {block : List Char} (hne : block ≠ [])
    (hhead : ∀ c ∈ block.head?, isSpace c = false) (hinside : ¬ ('\n' :: dashes) <:+: block)
    (body : List Char) :
    matchFrontmatter (dashes ++ '\n' :: (block ++ ('\n' :: dashes ++ body))) = some (block, body) := by
  obtain ⟨c, rest, rfl⟩ := List.exists_cons_of_ne_nil hne
  have hc : isSpace c = false := hhead c rfl
  have hopen : afterOpening ('\n' :: ((c :: rest) ++ ('\n' :: dashes ++ body))) =
      closing ((c :: rest) ++ ('\n' :: dashes ++ body)) := by
    rw [afterOpening, if_pos (by decide), List.cons_append, afterOpening, if_neg (by simp [hc])]
    rfl
  have hdashes : dashes.isPrefixOf (dashes ++ '\n' :: ((c :: rest) ++ ('\n' :: dashes ++ body))) =
      true := by
    rw [List.isPrefixOf_iff_prefix]
    exact List.prefix_append _ _
  rw [matchFrontmatter, if_pos hdashes]
  change afterOpening ('\n' :: ((c :: rest) ++ ('\n' :: dashes ++ body))) = _
  rw [hopen, closing_append hinside]

/-! ## Fields -/

section

variable {κ α : Type} [DecidableEq κ] {prd : κ}

theorem lookup_deepMerge {source : List (κ × Doc κ α)} (hn : (source.map (·.1)).Nodup)
    (target : List (κ × Doc κ α)) (key : κ) :
    Dict.lookup (deepMerge target source) key =
      match Dict.lookup source key with
      | some value => some (mergeValue (Dict.lookup target key) value)
      | none => Dict.lookup target key := by
  induction source generalizing target with
  | nil => rw [deepMerge]; rfl
  | cons m source ih =>
      obtain ⟨k, v⟩ := m
      rw [List.map_cons, List.nodup_cons] at hn
      rw [deepMerge, ih hn.2, Dict.lookup_cons]
      by_cases hk : k = key
      · subst hk
        have hrest : Dict.lookup source k = none := Dict.lookup_eq_none_iff.mpr hn.1
        rw [hrest, if_pos rfl, Dict.lookup_set_self]
      · rw [if_neg hk, Dict.lookup_set_ne _ (Ne.symm hk)]

theorem keys_deepMerge {target source : List (κ × Doc κ α)} (hn : (target.map (·.1)).Nodup) :
    ((deepMerge target source).map (·.1)).Nodup := by
  induction source generalizing target with
  | nil => rwa [deepMerge]
  | cons m source ih =>
      rw [deepMerge]
      exact ih (Dict.keys_set_nodup hn _ _)

theorem lookup_flatten {data inner : List (κ × Doc κ α)} (hn : (data.map (·.1)).Nodup)
    (hprd : Dict.lookup data prd = some (.map inner)) (key : κ) :
    Dict.lookup (flatten prd data) key =
      (if key = prd then none else Dict.lookup data key).or (Dict.lookup inner key) := by
  have hfilter : ((data.filter fun m => m.1 ≠ prd).map (·.1)).Nodup :=
    hn.sublist (List.filter_sublist.map _)
  rw [flatten, hprd]
  simp only
  rw [Dict.lookup_spread hfilter, Dict.lookup_without]

theorem flatten_of_not {data : List (κ × Doc κ α)}
    (hprd : ∀ inner, Dict.lookup data prd ≠ some (.map inner)) : flatten prd data = data := by
  unfold flatten
  split
  · next inner h => exact absurd h (hprd inner)
  · rfl

theorem not_own_value (members : List (κ × Doc κ α)) (key : κ) :
    Dict.lookup members key ≠ some (.map members) := by
  intro h
  have hsize := List.sizeOf_lt_of_mem (Dict.mem_of_lookup h)
  simp only [Prod.mk.sizeOf_spec, Doc.map.sizeOf_spec] at hsize
  omega

theorem mergeValue_of_not {old : Option (Doc κ α)} {value : Doc κ α}
    (h : ∀ members, old ≠ some (.map members)) : mergeValue old value = value := by
  unfold mergeValue
  split
  · next target source => exact absurd rfl (h target)
  · rfl

variable {data updates : List (κ × Doc κ α)}

theorem mergeUpdates_nested {inner : List (κ × Doc κ α)}
    (hprd : Dict.lookup data prd = some (.map inner)) :
    mergeUpdates prd data updates = Dict.set data prd (.map (deepMerge inner updates)) := by
  rw [mergeUpdates, hprd]

theorem mergeUpdates_flat (hprd : ∀ inner, Dict.lookup data prd ≠ some (.map inner)) :
    mergeUpdates prd data updates = deepMerge data updates := by
  unfold mergeUpdates
  split
  · next inner h => exact absurd h (hprd inner)
  · rfl

theorem lookup_nested {inner : List (κ × Doc κ α)} (hn : (data.map (·.1)).Nodup)
    (hprd : Dict.lookup data prd = some (.map inner)) (key : κ) :
    Dict.lookup (flatten prd (mergeUpdates prd data updates)) key =
      (if key = prd then none else Dict.lookup data key).or
        (Dict.lookup (deepMerge inner updates) key) := by
  rw [mergeUpdates_nested hprd,
    lookup_flatten (Dict.keys_set_nodup hn _ _) (Dict.lookup_set_self _ _ _)]
  by_cases hkey : key = prd
  · rw [if_pos hkey, if_pos hkey]
  · rw [if_neg hkey, if_neg hkey, Dict.lookup_set_ne _ hkey]

variable (prd) in
/-- What the fields are to be for an update to be read back. -/
structure Readable (data updates : List (κ × Doc κ α)) : Prop where
  nested : ∀ inner, Dict.lookup data prd = some (.map inner) → ∀ key value old,
    Dict.lookup updates key = some value → key ≠ prd → Dict.lookup data key = some old →
    mergeValue (some old) value = old
  own : (∀ inner, Dict.lookup data prd ≠ some (.map inner)) →
    ∀ members, Dict.lookup updates prd ≠ some (.map members)

variable (prd) in
/-- The fields are read as the updates say, and the others as before. -/
structure FieldsRead (data updates : List (κ × Doc κ α)) : Prop where
  fields : ∀ key value, Dict.lookup updates key = some value →
    Dict.lookup (flatten prd (mergeUpdates prd data updates)) key =
      some (mergeValue (Dict.lookup (flatten prd data) key) value)
  others : ∀ key, Dict.lookup updates key = none →
    Dict.lookup (flatten prd (mergeUpdates prd data updates)) key =
      Dict.lookup (flatten prd data) key

theorem readable_of_read (hn : (data.map (·.1)).Nodup) (hu : (updates.map (·.1)).Nodup)
    (h : FieldsRead prd data updates) : Readable prd data updates := by
  constructor
  · intro inner hprd key value old hvalue hkey hold
    have hread := h.fields key value hvalue
    rw [lookup_nested hn hprd, lookup_flatten hn hprd, if_neg hkey, hold, Option.some_or,
      Option.some_or, Option.some.injEq] at hread
    exact hread.symm
  · intro hprd members hvalue
    have hread := h.fields prd _ hvalue
    rw [flatten_of_not hprd, mergeUpdates_flat hprd, mergeValue_of_not hprd] at hread
    have hmade : Dict.lookup (deepMerge data updates) prd = some (.map members) := by
      rw [lookup_deepMerge hu, hvalue]
      simp only
      rw [mergeValue_of_not hprd]
    rw [lookup_flatten (keys_deepMerge hn) hmade, if_pos rfl, Option.none_or] at hread
    exact not_own_value members prd hread

theorem read_of_readable (hn : (data.map (·.1)).Nodup) (hu : (updates.map (·.1)).Nodup)
    (h : Readable prd data updates) : FieldsRead prd data updates := by
  by_cases hprd : ∃ inner, Dict.lookup data prd = some (.map inner)
  · obtain ⟨inner, hprd⟩ := hprd
    constructor
    · intro key value hvalue
      rw [lookup_nested hn hprd, lookup_flatten hn hprd, lookup_deepMerge hu, hvalue]
      by_cases hkey : key = prd
      · rw [if_pos hkey, Option.none_or, Option.none_or]
      · rw [if_neg hkey]
        cases hold : Dict.lookup data key with
        | none => rw [Option.none_or, Option.none_or]
        | some old =>
            rw [Option.some_or, Option.some_or, h.nested inner hprd key value old hvalue hkey hold]
    · intro key hnone
      rw [lookup_nested hn hprd, lookup_flatten hn hprd, lookup_deepMerge hu, hnone]
  · push Not at hprd
    have hprd' : ∀ inner, Dict.lookup (deepMerge data updates) prd ≠ some (.map inner) := by
      intro inner hinner
      rw [lookup_deepMerge hu] at hinner
      cases hvalue : Dict.lookup updates prd with
      | none =>
          rw [hvalue] at hinner
          exact hprd inner hinner
      | some value =>
          rw [hvalue] at hinner
          simp only at hinner
          rw [mergeValue_of_not hprd, Option.some.injEq] at hinner
          exact h.own hprd inner (hvalue.trans (congrArg some hinner))
    constructor
    · intro key value hvalue
      rw [mergeUpdates_flat hprd, flatten_of_not hprd', flatten_of_not hprd, lookup_deepMerge hu,
        hvalue]
    · intro key hnone
      rw [mergeUpdates_flat hprd, flatten_of_not hprd', flatten_of_not hprd, lookup_deepMerge hu,
        hnone]

/-! ## The body -/

variable {yaml : Yaml κ α}

omit [DecidableEq κ] in
theorem searchStatus_split {text front word rest : List Char}
    (h : searchStatus yaml text = some (front, word, rest)) :
    text = front ++ word ++ rest ∧ '\r' ∉ word := by
  induction text generalizing front with
  | nil => simp [searchStatus] at h
  | cons c text ih =>
      rw [searchStatus] at h
      cases hmatch : matchStatus yaml (c :: text) with
      | none =>
          rw [hmatch, Option.none_or, Option.map_eq_some_iff] at h
          obtain ⟨⟨front', word', rest'⟩, hlater, heq⟩ := h
          simp only [Prod.mk.injEq] at heq
          obtain ⟨rfl, rfl, rfl⟩ := heq
          obtain ⟨htext, hword⟩ := ih hlater
          exact ⟨by rw [htext]; simp, hword⟩
      | some parts =>
          rw [hmatch, Option.some_or, Option.some.injEq] at h
          subst h
          simp only [matchStatus] at hmatch
          split at hmatch
          · next hlabel =>
              split at hmatch
              · simp at hmatch
              · rw [Option.some.injEq, Prod.mk.injEq, Prod.mk.injEq] at hmatch
                obtain ⟨rfl, rfl, rfl⟩ := hmatch
                obtain ⟨tail, htail⟩ := List.isPrefixOf_iff_prefix.mp hlabel
                constructor
                · rw [← htail, List.drop_left]
                  simp [List.takeWhile_append_dropWhile, List.append_assoc]
                · intro hmem
                  have hword := List.mem_takeWhile_imp hmem
                  exact absurd (yaml.word_space _ hword) (by decide)
          · simp at hmatch

theorem splitEnd_append (lineStart : Bool) (text : List Char) :
    (splitEnd lineStart text).1 ++ (splitEnd lineStart text).2 = text := by
  induction text generalizing lineStart with
  | nil => rfl
  | cons c text ih =>
      rw [splitEnd]
      split
      · rfl
      · simp [ih]

theorem afterLiteral_suffix {ps cs rest : List Char} (h : afterLiteral ps cs = some rest) :
    rest <:+ cs := by
  induction ps generalizing cs with
  | nil =>
      rw [afterLiteral, Option.some.injEq] at h
      exact h ▸ List.suffix_refl _
  | cons p ps ih =>
      cases cs with
      | nil => simp [afterLiteral] at h
      | cons c cs =>
          rw [afterLiteral] at h
          split at h
          · exact (ih h).trans (List.suffix_cons _ _)
          · simp at h

theorem afterHashes_suffix {cs rest : List Char} (h : afterHashes cs = some rest) : rest <:+ cs := by
  simp only [afterHashes] at h
  split at h
  · rw [Option.some.injEq] at h
    exact h ▸ (List.dropWhile_suffix _).trans (List.dropWhile_suffix _)
  · simp at h

theorem matchQuickReference_suffix {cs rest : List Char} (h : matchQuickReference cs = some rest) :
    rest <:+ cs := by
  simp only [matchQuickReference, Option.bind_eq_some_iff, Option.map_eq_some_iff] at h
  obtain ⟨middle, hmiddle, n, -, rfl⟩ := h
  refine (List.drop_suffix _ _).trans ?_
  rw [Option.or_eq_some_iff] at hmiddle
  rcases hmiddle with hbold | ⟨-, hheading⟩
  · obtain ⟨after, hafter, rfl⟩ := Option.map_eq_some_iff.mp hbold
    refine List.IsSuffix.trans ?_ (afterLiteral_suffix hafter)
    split
    · exact List.drop_suffix _ _
    · exact List.suffix_refl _
  · obtain ⟨after, hafter, hliteral⟩ := Option.bind_eq_some_iff.mp hheading
    exact (afterLiteral_suffix hliteral).trans (afterHashes_suffix hafter)

theorem splitMarker_append {lineStart : Bool} {text front rest : List Char}
    (h : splitMarker lineStart text = some (front, rest)) : front ++ rest = text := by
  induction text generalizing lineStart front with
  | nil =>
      rw [splitMarker] at h
      split at h
      · next hmatch =>
          rw [Option.some.injEq, Prod.mk.injEq] at h
          obtain ⟨rfl, rfl⟩ := h
          split at hmatch
          · have hsuffix := matchQuickReference_suffix hmatch
            simpa using hsuffix
          · simp at hmatch
      · simp at h
  | cons c text ih =>
      rw [splitMarker] at h
      split at h
      · next hmatch =>
          rw [Option.some.injEq, Prod.mk.injEq] at h
          obtain ⟨rfl, rfl⟩ := h
          split at hmatch
          · obtain ⟨t, ht⟩ := matchQuickReference_suffix hmatch
            rw [← ht, List.length_append, Nat.add_sub_cancel, List.take_left]
          · simp at hmatch
      · simp only [Option.map_eq_some_iff, Prod.mk.injEq] at h
        obtain ⟨⟨front', rest'⟩, hlater, rfl, rfl⟩ := h
        rw [List.cons_append, ih hlater]

omit [DecidableEq κ] in
theorem statusWord_split {body front word rest : List Char}
    (h : statusWord yaml body = some (front, word, rest)) :
    body = front ++ word ++ rest ∧ '\r' ∉ word := by
  simp only [statusWord, quickReferenceBlockSpan, Option.bind_eq_some_iff, Option.map_eq_some_iff,
    Prod.exists, Prod.mk.injEq] at h
  obtain ⟨lead, block, tail, ⟨lead', text, hmarker, rfl, hend⟩, front', word', rest', hstatus,
    rfl, rfl, rfl⟩ := h
  obtain ⟨hblock, hword⟩ := searchStatus_split hstatus
  refine ⟨?_, hword⟩
  have htext := splitEnd_append (lead'.getLast? = some '\n') text
  rw [hend] at htext
  simp only at htext
  rw [← splitMarker_append hmarker, ← htext, hblock]
  simp

omit [DecidableEq κ] in
theorem mem_syncStatus {value : Option (Doc κ α)} {body : List Char} (h : '\r' ∈ body) :
    '\r' ∈ syncStatus yaml value body := by
  unfold syncStatus
  split
  · next v front word rest hword =>
      obtain ⟨rfl, hword⟩ := statusWord_split hword
      simp only [List.mem_append] at h ⊢
      tauto
  · exact h

omit [DecidableEq κ] in
theorem not_mem_syncStatus {value : Option (Doc κ α)} {body : List Char} (h : '\r' ∉ body)
    (hvalue : ∀ v ∈ value, '\r' ∉ yaml.capitalize (yaml.str v)) :
    '\r' ∉ syncStatus yaml value body := by
  unfold syncStatus
  split
  · next v front word rest hword =>
      obtain ⟨rfl, -⟩ := statusWord_split hword
      have hv := hvalue v rfl
      simp only [List.mem_append, not_or] at h ⊢
      exact ⟨⟨h.1.1, hv⟩, h.2⟩
  · exact h

/-! ## The file -/

/-- What the dumper writes for a map: lines of their own that load as it, with no delimiter and no
carriage return in them. -/
structure Dumped (yaml : Yaml κ α) (data : List (κ × Doc κ α)) (block : List Char) : Prop where
  text : yaml.dump data = block ++ ['\n']
  loads : yaml.load block = some (.map data)
  ne_nil : block ≠ []
  head : ∀ c ∈ block.head?, isSpace c = false
  inside : ¬ ('\n' :: dashes) <:+: block
  line_ends : '\r' ∉ block

/-- An update did what it was asked to: the fields are read as the updates say, the others as
before, and after the delimiter stands what stood there, but for the status word. -/
structure Updated (yaml : Yaml κ α) (prd status : κ) (updates : List (κ × Doc κ α))
    (file body file' : List Char) : Prop where
  fields : ∀ key value, Dict.lookup updates key = some value →
    Dict.lookup (parseFrontmatter yaml prd (readText file')) key =
      some (mergeValue (Dict.lookup (parseFrontmatter yaml prd (readText file)) key) value)
  others : ∀ key, Dict.lookup updates key = none →
    Dict.lookup (parseFrontmatter yaml prd (readText file')) key =
      Dict.lookup (parseFrontmatter yaml prd (readText file)) key
  body : ∃ front block,
    file' = front ++ dashes ++ syncStatus yaml (Dict.lookup updates status) body ∧
      matchFrontmatter (readText file') =
        some (block, readText (syncStatus yaml (Dict.lookup updates status) body))

/-- A file that the program splits at its closing delimiter, with `body` after it. -/
structure Splits (file block body : List Char) : Prop where
  text : ∃ front, file = front ++ dashes ++ body
  matched : matchFrontmatter (readText file) = some (block, readText body)

variable {status : κ} {block block' body : List Char}

/-- The text an update writes. -/
def written (yaml : Yaml κ α) (status : κ) (updates : List (κ × Doc κ α))
    (block body : List Char) : List Char :=
  dashes ++ '\n' :: (block ++ ('\n' :: dashes ++
    syncStatus yaml (Dict.lookup updates status) (readText body)))

theorem readText_written (hdump : Dumped yaml data block) :
    readText (written yaml status updates block body) = dashes ++ '\n' :: (block ++
      ('\n' :: dashes ++
        readText (syncStatus yaml (Dict.lookup updates status) (readText body)))) := by
  have hline := hdump.line_ends
  have hhead : '\r' ∉ dashes ++ '\n' :: (block ++ '\n' :: dashes) := by
    simp [dashes, hline]
  have happend := readText_append hhead
    (syncStatus yaml (Dict.lookup updates status) (readText body))
  simpa [written] using happend

theorem match_readText_written (hdump : Dumped yaml data block) :
    matchFrontmatter (readText (written yaml status updates block body)) =
      some (block, readText (syncStatus yaml (Dict.lookup updates status) (readText body))) := by
  rw [readText_written hdump, match_written hdump.ne_nil hdump.head hdump.inside]

end

/-! ## A file with one field -/

def statusLabel : List Char := "status: ".toList

/-- YAML of one line with one field. -/
def sampleYaml : Yaml String String where
  load text :=
    if statusLabel.isPrefixOf text then
      some (.map [("status", .leaf (String.ofList (text.drop 8)))])
    else none
  dump
    | [(key, .leaf value)] => key.toList ++ ": ".toList ++ value.toList ++ ['\n']
    | _ => []
  str
    | .leaf value => value.toList
    | .map _ => []
  capitalize
    | [] => []
    | c :: cs => c.toUpper :: cs.map Char.toLower
  isWord := isAlnum
  keys_nodup := by
    intro text data h
    split at h
    · simp only [Option.some.injEq, Doc.map.injEq] at h
      simp [← h]
    · simp at h
  word_space := by
    intro c hc
    have hbounds : 48 ≤ c.toNat ∧ c.toNat ≤ 122 := by
      simp only [isAlnum, isLower, isUpper, isDigit, range, Bool.or_eq_true,
        decide_eq_true_eq] at hc
      have hchars : 'a'.toNat = 97 ∧ 'z'.toNat = 122 ∧ 'A'.toNat = 65 ∧ 'Z'.toNat = 90 ∧
          '0'.toNat = 48 ∧ '9'.toNat = 57 := by decide
      omega
    have hother : ['\x85', '\xa0', '\u1680', '\u2028', '\u2029', '\u202f', '\u205f',
        '\u3000'].contains c = false := by
      have hfar : ∀ d ∈ ['\x85', '\xa0', '\u1680', '\u2028', '\u2029', '\u202f', '\u205f',
          '\u3000'], 122 < d.toNat := by
        simp only [List.forall_mem_cons]
        exact ⟨by decide, by decide, by decide, by decide, by decide, by decide, by decide,
          by decide, by simp⟩
      rw [← Bool.not_eq_true, List.contains_iff_mem]
      intro hmem
      have hc := hfar c hmem
      omega
    have hranges : ∀ a b : Char, b.toNat ≤ 32 ∨ 8192 ≤ a.toNat → range a b c = false := by
      intro a b h
      simp only [range, decide_eq_false_iff_not]
      omega
    rw [isSpace, hother, hranges _ _ (.inl (by decide)), hranges _ _ (.inl (by decide)),
      hranges _ _ (.inr (by decide))]
    rfl

def approved : List (String × Doc String String) := [("status", .leaf "approved")]

def draftBlock : List Char := "status: draft".toList

def draftFile : List Char := "---\nstatus: draft\n---\n# Title\n".toList

/-- The file of `draftFile` with the line ends of another system. -/
def draftFileCrlf : List Char := "---\r\nstatus: draft\r\n---\r\n# Title\r\n".toList

end TrwMcp.Requirements.Frontmatter
