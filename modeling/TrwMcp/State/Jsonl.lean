import TrwMcp.Handoff.Json

/-!
# JSONL files

An append takes the file's lock, so rows never interleave, but it can stop part way: what it left
stays on the open line, and the next append goes on behind it.
-/

namespace TrwMcp.State

open Handoff

/-- What `json.loads` makes of one stripped line. -/
inductive Loaded (R : Type) where
  | blank
  | value (r : R)
  | malformed

/-- `read_jsonl(path, strict=True)`; nothing is the `StateError`. -/
@[grind =] def readJsonl {L : Type} (loads : L → Loaded Json) : List L → Option (List Json)
  | [] => some []
  | line :: lines =>
      match loads line with
      | .blank => readJsonl loads lines
      | .malformed => none
      | .value j => if j.isDict then (readJsonl loads lines).map (j :: ·) else none

variable {R : Type}

/-- What one append left of its row. -/
inductive Piece (R : Type) where
  | row (r : R)
  | part
  deriving DecidableEq

/-- The lines and what stands after the last newline, as the pieces they were written in. -/
structure JsonlFile (R : Type) where
  lines : List (List (Piece R)) := []
  tail : List (Piece R) := []
  deriving DecidableEq

/-- One row and nothing else is JSON; a part of a row, and rows on one line, are not. -/
def loadsLine : List (Piece R) → Loaded R
  | [] => .blank
  | [.row r] => .value r
  | _ => .malformed

/-- How far an append came. -/
inductive Written where
  | nothing
  | part
  | text
  | line
  deriving DecidableEq

/-- `append_jsonl`; anything short of the whole line is an append that was interrupted. -/
def JsonlFile.append (file : JsonlFile R) (row : R) : Written → JsonlFile R
  | .nothing => file
  | .part => { file with tail := file.tail ++ [.part] }
  | .text => { file with tail := file.tail ++ [.row row] }
  | .line => ⟨file.lines ++ [file.tail ++ [.row row]], []⟩

/-- The lines a reader sees; the blank one after the last newline is skipped. -/
def JsonlFile.seen (file : JsonlFile R) : List (List (Piece R)) := file.lines ++ [file.tail]

/-- Whether the whole text of the row is there. -/
def Written.lands : Written → Bool
  | .nothing | .part => false
  | .text | .line => true

/-- Whether the append stopped part way. -/
def Written.cut : Written → Bool
  | .part | .text => true
  | .nothing | .line => false

/-- `read_jsonl(path)`: a line that is no row is skipped. -/
def JsonlFile.readable (file : JsonlFile R) : List R :=
  file.seen.filterMap fun line =>
    match loadsLine line with
    | .value r => some r
    | _ => none

theorem readable_append {file : JsonlFile R} (h : file.tail = []) (row : R) (written : Written) :
    (file.append row written).readable =
      file.readable ++ if written.lands then [row] else [] := by
  cases written <;>
    simp [JsonlFile.readable, JsonlFile.append, JsonlFile.seen, h, List.filterMap_append, loadsLine,
      Written.lands]

theorem mem_readable {file : JsonlFile R} {r : R} :
    r ∈ file.readable ↔ [.row r] ∈ file.seen := by
  rw [JsonlFile.readable, List.mem_filterMap]
  constructor
  · rintro ⟨line, hline, hr⟩
    unfold loadsLine at hr
    split at hr
    · next r' hvalue =>
        split at hvalue
        · cases hvalue
        · obtain rfl := Loaded.value.inj hvalue
          obtain rfl := Option.some.inj hr
          exact hline
        · cases hvalue
    · cases hr
  · exact fun h => ⟨_, h, rfl⟩

theorem mem_readable_append {file : JsonlFile R} {row r : R} {written : Written}
    (h : r ∈ (file.append row written).readable) :
    r ∈ file.readable ∨ (r = row ∧ written.lands = true) := by
  have hglue : ∀ p, [Piece.row r] = file.tail ++ [p] → file.tail = [] ∧ p = .row r := by
    intro p hp
    obtain ⟨htail, hp⟩ := List.append_inj' ((List.nil_append [Piece.row r]).trans hp) rfl
    exact ⟨htail.symm, (List.singleton_inj.mp hp).symm⟩
  rw [mem_readable] at h ⊢
  cases written with
  | nothing => exact .inl h
  | part =>
      rcases List.mem_append.mp h with h | h
      · exact .inl (List.mem_append_left _ h)
      · cases (hglue _ (List.mem_singleton.mp h)).2
  | text =>
      rcases List.mem_append.mp h with h | h
      · exact .inl (List.mem_append_left _ h)
      · exact .inr ⟨(Piece.row.inj (hglue _ (List.mem_singleton.mp h)).2).symm, rfl⟩
  | line =>
      rcases List.mem_append.mp h with h | h
      · rcases List.mem_append.mp h with h | h
        · exact .inl (List.mem_append_left _ h)
        · exact .inr ⟨(Piece.row.inj (hglue _ (List.mem_singleton.mp h)).2).symm, rfl⟩
      · cases List.mem_singleton.mp h

end TrwMcp.State
