import Mathlib.Data.List.Basic
import Mathlib.Data.List.Infix

/-!
# Shell-style patterns

A pattern is read into items once, and the items are matched against the text. Two readers of
patterns agree on a text as soon as they read the same items, so a comparison of two pattern
languages never looks at the matcher.
-/

namespace TrwMcp.Lib.Glob

/-- One item of a pattern. A set holds inclusive ranges; an empty range matches nothing. -/
inductive Item where
  | star
  | one
  | lit (c : Char)
  | set (negated : Bool) (ranges : List (Char × Char))
  deriving DecidableEq, Repr

/-- A range of a set holds the character. -/
def inRanges (ranges : List (Char × Char)) (c : Char) : Bool :=
  ranges.any fun r => decide (r.1.toNat ≤ c.toNat ∧ c.toNat ≤ r.2.toNat)

/-- The item matches this one character. A star is not asked. -/
def Item.accepts : Item → Char → Bool
  | star, _ => false
  | one, _ => true
  | lit d, c => d == c
  | set negated ranges, c => inRanges ranges c != negated

/-- The items match the whole text. -/
@[grind =] def allMatch : List Item → List Char → Bool
  | [], cs => cs.isEmpty
  | .star :: items, cs => cs.tails.any (allMatch items)
  | _ :: _, [] => false
  | item :: items, c :: cs => item.accepts c && allMatch items cs

/-- The ranges of a set, read left to right: `a-b` is a range where something follows the hyphen,
and every other character stands for itself. -/
@[grind =] def readRanges : List Char → List (Char × Char)
  | [] => []
  | lo :: '-' :: hi :: rest => (lo, hi) :: readRanges rest
  | c :: rest => (c, c) :: readRanges rest

/-- What stands before the first `]`, if there is one. -/
@[grind =] def upToBracket : List Char → Option (List Char)
  | [] => none
  | c :: cs => if c = ']' then some [] else (upToBracket cs).map (c :: ·)

/-- What stands between `[` and the `]` that ends the set; a `]` that comes first is a member. -/
def bracketBody : List Char → Option (List Char)
  | [] => none
  | c :: cs => (upToBracket cs).map (c :: ·)

/-! ## Lemmas of the matcher -/

@[simp] theorem allMatch_nil (cs : List Char) : allMatch [] cs = cs.isEmpty := rfl

theorem allMatch_star {items : List Item} {cs : List Char} :
    allMatch (.star :: items) cs = true ↔ ∃ rest, rest <:+ cs ∧ allMatch items rest = true := by
  simp [allMatch, List.any_eq_true, List.mem_tails]

theorem allMatch_lit {items : List Item} {cs : List Char} {d : Char} :
    allMatch (.lit d :: items) cs = true ↔ ∃ rest, cs = d :: rest ∧ allMatch items rest = true := by
  cases cs with
  | nil => simp [allMatch]
  | cons c cs =>
      simp only [allMatch, Item.accepts, Bool.and_eq_true, beq_iff_eq, List.cons.injEq]
      constructor
      · rintro ⟨rfl, h⟩
        exact ⟨cs, ⟨rfl, rfl⟩, h⟩
      · rintro ⟨_, ⟨rfl, rfl⟩, h⟩
        exact ⟨rfl, h⟩

/-- Literals match themselves, and what follows them matches the rest. -/
theorem allMatch_lits {lits : List Char} {items : List Item} {cs : List Char} :
    allMatch (lits.map .lit ++ items) cs = true ↔
      ∃ rest, cs = lits ++ rest ∧ allMatch items rest = true := by
  induction lits generalizing cs with
  | nil => simp
  | cons d lits ih =>
      rw [List.map_cons, List.cons_append, allMatch_lit]
      constructor
      · rintro ⟨tail, rfl, h⟩
        obtain ⟨rest, rfl, hrest⟩ := ih.mp h
        exact ⟨rest, rfl, hrest⟩
      · rintro ⟨rest, rfl, hrest⟩
        exact ⟨lits ++ rest, rfl, ih.mpr ⟨rest, rfl, hrest⟩⟩

theorem upToBracket_eq {cs body : List Char} (h : upToBracket cs = some body) :
    ']' ∉ body ∧ ∃ rest, cs = body ++ ']' :: rest := by
  induction cs generalizing body with
  | nil => cases h
  | cons c cs ih =>
      rw [upToBracket] at h
      split at h
      · next hc =>
        obtain rfl := Option.some.inj h
        exact ⟨by simp, cs, by simp [hc]⟩
      · next hc =>
        obtain ⟨tail, htail, rfl⟩ := Option.map_eq_some_iff.mp h
        obtain ⟨hnot, rest, rfl⟩ := ih htail
        refine ⟨?_, rest, rfl⟩
        rw [List.mem_cons, not_or]
        exact ⟨fun heq => hc heq.symm, hnot⟩

/-- Reading up to the bracket ignores what follows it. -/
theorem upToBracket_append {body rest : List Char} (h : ']' ∉ body) :
    upToBracket (body ++ ']' :: rest) = some body := by
  induction body with
  | nil => simp [upToBracket]
  | cons c body ih =>
      simp only [List.mem_cons, not_or] at h
      simp [upToBracket, Ne.symm h.1, ih h.2]

end TrwMcp.Lib.Glob
