import TrwMcp.Lib.Regex
import Mathlib.Data.List.DropRight
import Mathlib.Data.List.Infix

/-!
# Python text

The string methods the modules share, on characters: `strip`, `rstrip("/")`, `removeprefix`.
-/

namespace TrwMcp.Lib

open Regex

namespace Text

/-- `text.strip()` -/
def stripChars (cs : List Char) : List Char := (cs.dropWhile isSpace).rdropWhile isSpace

/-- `text.rstrip("/")` -/
def rstripChars (cs : List Char) : List Char := cs.rdropWhile (· == '/')

/-- `text.removeprefix(lead)` -/
def removeLead (lead cs : List Char) : List Char :=
  if lead.isPrefixOf cs then cs.drop lead.length else cs

theorem rdropWhile_initial {p : Char → Bool} (cs : List Char) : cs.rdropWhile p <+: cs := by
  open List in
  exact rdropWhile_prefix p cs

theorem stripChars_within (cs : List Char) : stripChars cs <:+: cs :=
  (rdropWhile_initial _).isInfix.trans (List.dropWhile_suffix _).isInfix

theorem removeLead_suffix (lead cs : List Char) : removeLead lead cs <:+ cs := by
  unfold removeLead
  split
  · exact List.drop_suffix _ _
  · exact List.suffix_refl _

/-- Stripping changes nothing exactly where no blank stands at either end. -/
theorem stripChars_eq_self {cs : List Char} :
    stripChars cs = cs ↔ (∀ c ∈ cs.head?, isSpace c = false) ∧
      ∀ c ∈ cs.getLast?, isSpace c = false := by
  constructor
  · intro h
    have hlen := congrArg List.length h
    have h1 : (cs.dropWhile isSpace).length ≤ cs.length := (List.dropWhile_suffix _).length_le
    have h2 := (rdropWhile_initial (p := isSpace) (cs.dropWhile isSpace)).length_le
    have hdrop : cs.dropWhile isSpace = cs :=
      (List.dropWhile_suffix _).eq_of_length (by simp only [stripChars] at hlen; omega)
    rw [stripChars, hdrop] at h
    constructor
    · intro c hc
      cases cs with
      | nil => cases hc
      | cons d cs =>
          obtain rfl := Option.some.inj hc
          by_contra hspace
          rw [List.dropWhile_cons_of_pos (by simpa using hspace)] at hdrop
          have := (List.dropWhile_suffix isSpace (l := cs)).length_le
          rw [hdrop, List.length_cons] at this
          omega
    · intro c hc
      have hne : cs ≠ [] := by
        rintro rfl
        cases hc
      have := List.rdropWhile_eq_self_iff.mp h hne
      rw [List.getLast?_eq_getLast_of_ne_nil hne] at hc
      obtain rfl := Option.some.inj hc
      simpa using this
  · rintro ⟨hhead, hlast⟩
    have hdrop : cs.dropWhile isSpace = cs := by
      cases cs with
      | nil => rfl
      | cons d cs => rw [List.dropWhile_cons_of_neg (by simp [hhead d rfl])]
    rw [stripChars, hdrop, List.rdropWhile_eq_self_iff]
    intro hne
    simp [hlast _ (List.getLast?_eq_getLast_of_ne_nil hne)]

theorem stripChars_idem (cs : List Char) : stripChars (stripChars cs) = stripChars cs := by
  rw [stripChars_eq_self]
  constructor
  · intro c hc
    obtain ⟨rest, hrest⟩ := rdropWhile_initial (p := isSpace) (cs.dropWhile isSpace)
    have hhead : (cs.dropWhile isSpace).head? = some c := by
      rw [← hrest, List.head?_append]
      exact Option.or_eq_some_iff.mpr (.inl hc)
    have := List.head?_dropWhile_not isSpace cs
    rw [hhead] at this
    exact this
  · intro c hc
    have hne : (cs.dropWhile isSpace).rdropWhile isSpace ≠ [] := by
      intro hnil
      rw [stripChars, hnil] at hc
      cases hc
    have hlast := List.rdropWhile_last_not isSpace (cs.dropWhile isSpace) hne
    rw [stripChars, List.getLast?_eq_getLast_of_ne_nil hne] at hc
    obtain rfl := Option.some.inj hc
    simpa using hlast

end Text

end TrwMcp.Lib
