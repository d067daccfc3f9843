import TrwMcp.Intent.LedgerRuns
import TrwMcp.Lib.Text
import Mathlib.Data.Prod.Lex

/-!
# The dirty page of a push

Which rows of the store the push half takes up: the oldest page that holds a row to push, found by a
cursor that moves behind every page of pulled and held rows. Pulled rows nobody edited are marked
synced on the way.
-/

namespace TrwMcp.Sync

open Handoff Intent Lib

/-- A row of the store; `importance` is the text of the float, rounded to six places. -/
structure MemoryEntry where
  id : String
  syncSeq : Int
  source : Option String := none
  sourceIdentity : Option String := none
  clientProfile : Option String := none
  content : String := ""
  detail : Option String := none
  tags : List String := []
  importance : String := "0.0"
  metadata : List (String × Json) := []

abbrev RowKey := Int ×ₗ String

def MemoryEntry.key (e : MemoryEntry) : RowKey := toLex (e.syncSeq, e.id)

/-! ## Pulled rows -/

def baselineKey : String := "team_sync_content_fp"

def pulledSources : List String := ["team_sync", "company_sync"]

def pulledIdPrefix : List Char := "team-sync-".toList

def recorded (field : Option String) : String :=
  String.ofList (Text.stripChars (field.getD "").toList)

/-- An explicit source is final; the id decides only where no provenance is recorded at all. -/
def isPulled (e : MemoryEntry) : Bool :=
  if recorded e.source ≠ "" then pulledSources.contains (recorded e.source)
  else
    let others := [recorded e.sourceIdentity, recorded e.clientProfile].filter (· ≠ "")
    if others.isEmpty then pulledIdPrefix.isPrefixOf e.id.toList
    else others.any pulledSources.contains

section

variable (lib : Stdlib)

/-- What a person wrote in the row, hashed; blind to counters and metadata. -/
def contentFingerprint (e : MemoryEntry) : String :=
  let body : Json := .obj [("content", .str e.content), ("detail", .str (e.detail.getD "")),
    ("tags", .arr ((e.tags.insertionSort (· ≤ ·)).map .str)), ("importance", .float e.importance)]
  let text := String.ofList (dumps lib spaced body)
  String.ofList ((lib.sha256 text.toUTF8).toList.take 32)

/-- A row without a baseline is dirty through a counter only. -/
def isEditedHere (e : MemoryEntry) : Bool :=
  match Dict.lookup e.metadata baselineKey with
  | some (.str baseline) => baseline ≠ "" && baseline ≠ contentFingerprint lib e
  | some other => other.truthy
  | none => false

/-! ## Held rows -/

/-- The refused learnings by id, as the state file holds them. -/
abbrev Held := List (String × List (String × Json))

def equalsInt : Json → Int → Bool
  | .int m, n => m == n
  | .bool b, n => (if b then 1 else 0) == n
  | .float text, n => lib.floatCompare text n == some .eq
  | _, _ => false

def heldAtSeq (held : Held) (e : MemoryEntry) : Bool :=
  ((Dict.lookup held e.id).bind (Dict.lookup · "sync_seq")).any (equalsInt lib · e.syncSeq)

def pushable (held : Held) (e : MemoryEntry) : Bool := !isPulled e && !heldAtSeq lib held e

end

/-! ## The store -/

/-- The dirty rows of a namespace, in the order the store pages them. -/
structure DirtyRows where
  rows : List MemoryEntry
  ordered : rows.Pairwise fun e e' => e.key < e'.key

def behind : Option RowKey → MemoryEntry → Bool
  | none, _ => true
  | some cursor, e => decide (cursor < e.key)

def DirtyRows.behind (d : DirtyRows) (cursor : Option RowKey) : List MemoryEntry :=
  d.rows.filter (Sync.behind cursor)

/-- `page_dirty` -/
def DirtyRows.page (d : DirtyRows) (limit : Nat) (cursor : Option RowKey) : List MemoryEntry :=
  (d.behind cursor).take limit

def acks (pushed : List MemoryEntry) : List (String × Int) :=
  Dict.ofPairs (pushed.map fun e => (e.id, e.syncSeq))

def acked (pushed : List MemoryEntry) (e : MemoryEntry) : Bool :=
  Dict.lookup (acks pushed) e.id == some e.syncSeq

/-- `mark_synced`: a row counts only at the sequence it was pushed with. -/
def DirtyRows.markSynced (d : DirtyRows) (pushed : List MemoryEntry) : DirtyRows where
  rows := d.rows.filter (!acked pushed ·)
  ordered := d.ordered.sublist List.filter_sublist

/-! ## The scan -/

def maxDirtyPageRequest : Nat := 1000

def pulledCleanPasses : Nat := 200

/-- The rows to push, and the store with the rows that were marked synced. -/
structure Scan where
  found : List MemoryEntry
  dirty : DirtyRows
  marked : List MemoryEntry

section

variable (lib : Stdlib) (held : Held) (pageSize request : Nat)

/-- The loop of `get_dirty_entries`, by the passes left. -/
@[grind =] def scan : Nat → DirtyRows → List MemoryEntry → Option RowKey → Option (List RowKey) → Scan
  | 0, d, marked, _, _ => ⟨[], d, marked⟩
  | passes + 1, d, marked, cursor, previous =>
      let page := d.page request cursor
      let keys := page.map (·.key)
      if !keys.isEmpty && previous == some keys then ⟨[], d, marked⟩ else
      let unchanged := (page.filter isPulled).filter (!isEditedHere lib ·)
      let d := if unchanged.isEmpty then d else d.markSynced unchanged
      let marked := marked ++ unchanged
      let found := page.filter (pushable lib held)
      if !found.isEmpty then ⟨found.take pageSize, d, marked⟩
      else if page.length < request then ⟨[], d, marked⟩
      else
        match page.getLast? with
        -- `page[-1]` of an empty page raises, which ends the call with nothing
        | none => ⟨[], d, marked⟩
        | some last => scan passes d marked (some last.key) (some keys)

def requestSize : Nat := min (pageSize + held.length) maxDirtyPageRequest

def getDirtyEntries (d : DirtyRows) : Scan :=
  scan lib held pageSize (requestSize held pageSize) pulledCleanPasses d [] none none

end

/-! ## What a scan finds -/

/-- The first of `passes` pages with a row `p` takes, without the rows it does not take. -/
@[grind =] def firstPage (p : MemoryEntry → Bool) (pageSize request : Nat) :
    Nat → List MemoryEntry → List MemoryEntry
  | 0, _ => []
  | passes + 1, rows =>
      if (rows.take request).any p then ((rows.take request).filter p).take pageSize
      else firstPage p pageSize request passes (rows.drop request)

section

variable {p : MemoryEntry → Bool} {pageSize request passes : Nat} {rows : List MemoryEntry}

theorem firstPage_nil : firstPage p pageSize request passes [] = [] := by
  induction passes with
  | zero => rfl
  | succ passes ih => simpa [firstPage] using ih

theorem firstPage_prefix : firstPage p pageSize request passes rows <+: rows.filter p := by
  induction passes generalizing rows with
  | zero => exact List.nil_prefix
  | succ passes ih =>
      rw [firstPage]
      have hsplit := List.take_append_drop request rows
      split
      · refine (List.take_prefix _ _).trans ?_
        conv_rhs => rw [← hsplit, List.filter_append]
        exact List.prefix_append _ _
      · next hnone =>
          have hskip : (rows.take request).filter p = [] := by
            simpa [List.filter_eq_nil_iff] using hnone
          conv_rhs => rw [← hsplit, List.filter_append, hskip, List.nil_append]
          exact ih

theorem firstPage_length : (firstPage p pageSize request passes rows).length ≤ pageSize := by
  induction passes generalizing rows with
  | zero => exact Nat.zero_le _
  | succ passes ih =>
      rw [firstPage]
      split
      · exact List.length_take_le _ _
      · exact ih

theorem firstPage_ne_nil (hsize : 0 < pageSize) (hrequest : 0 < request) {i : Nat}
    {e : MemoryEntry} (hget : rows[i]? = some e) (he : p e = true) (hpages : i / request < passes) :
    firstPage p pageSize request passes rows ≠ [] := by
  induction passes generalizing rows i with
  | zero => exact absurd hpages (Nat.not_lt_zero _)
  | succ passes ih =>
      rw [firstPage]
      split
      · next hany =>
          obtain ⟨e', hmem, he'⟩ := List.any_eq_true.mp hany
          have hfound : (rows.take request).filter p ≠ [] :=
            List.ne_nil_of_mem (List.mem_filter.mpr ⟨hmem, he'⟩)
          simpa [hsize.ne'] using hfound
      · next hnone =>
          have hlater : request ≤ i := by
            by_contra hearly
            refine hnone (List.any_eq_true.mpr ⟨e, ?_, he⟩)
            refine List.mem_of_getElem? (i := i) ?_
            rw [List.getElem?_take_of_lt (by omega)]
            exact hget
          have hget' : (rows.drop request)[i - request]? = some e := by
            rw [List.getElem?_drop, Nat.add_sub_cancel' hlater]
            exact hget
          refine ih hget' ?_
          rw [Nat.div_eq_sub_div hrequest hlater] at hpages
          omega

end

/-! ## The scan follows the pages -/

section

variable {lib : Stdlib} {held : Held} {pageSize request : Nat} {d : DirtyRows}
  {cursor : Option RowKey}

theorem acked_iff {pushed : List MemoryEntry} {e : MemoryEntry} (h : acked pushed e = true) :
    ∃ e' ∈ pushed, e'.key = e.key := by
  have hmem := Dict.mem_of_lookup_ofPairs (eq_of_beq h)
  obtain ⟨e', he', heq⟩ := List.mem_map.mp hmem
  refine ⟨e', he', ?_⟩
  simp only [Prod.mk.injEq] at heq
  rw [MemoryEntry.key, MemoryEntry.key, heq.1, heq.2]

theorem DirtyRows.behind_ordered (d : DirtyRows) (cursor : Option RowKey) :
    (d.behind cursor).Pairwise fun e e' => e.key < e'.key :=
  d.ordered.sublist List.filter_sublist

theorem DirtyRows.page_subset : d.page request cursor ⊆ d.rows :=
  List.Subset.trans (List.take_subset _ _) List.filter_sublist.subset

theorem DirtyRows.eq_of_key {e e' : MemoryEntry} (he : e ∈ d.rows) (he' : e' ∈ d.rows)
    (h : e.key = e'.key) : e = e' := by
  have hkeys : (d.rows.map (·.key)).Nodup := by
    rw [List.Nodup, List.pairwise_map]
    exact d.ordered.imp fun hlt => hlt.ne
  exact List.inj_on_of_nodup_map hkeys he he' h

theorem behind_last {rows : List MemoryEntry} (hordered : rows.Pairwise fun e e' => e.key < e'.key)
    {n : Nat} {last : MemoryEntry} (hlast : (rows.take n).getLast? = some last) :
    rows.filter (behind (some last.key)) = rows.drop n := by
  conv_lhs => rw [← List.take_append_drop n rows, List.filter_append]
  rw [← List.take_append_drop n rows] at hordered
  obtain ⟨hpage, -, hcross⟩ := List.pairwise_append.mp hordered
  have hmem := List.mem_of_getLast? hlast
  have hfirst : (rows.take n).filter (behind (some last.key)) = [] := by
    rw [List.filter_eq_nil_iff]
    intro e he
    obtain ⟨init, hinit⟩ := List.getLast?_eq_some_iff.mp hlast
    rw [hinit] at hpage he
    rcases List.mem_append.mp he with he | he
    · have hlt := (List.pairwise_append.mp hpage).2.2 e he last (by simp)
      simpa [behind] using hlt.le
    · simp [behind, List.mem_singleton.mp he]
  have hrest : (rows.drop n).filter (behind (some last.key)) = rows.drop n := by
    rw [List.filter_eq_self]
    intro e he
    simpa [behind] using hcross last hmem e he
  rw [hfirst, hrest, List.nil_append]

theorem behind_markSynced {pushed : List MemoryEntry} {k : RowKey}
    (hpushed : ∀ e ∈ pushed, e.key ≤ k) :
    (d.markSynced pushed).behind (some k) = d.behind (some k) := by
  unfold DirtyRows.behind DirtyRows.markSynced
  dsimp only
  rw [List.filter_filter]
  refine List.filter_congr fun e _ => ?_
  cases hbehind : behind (some k) e with
  | false => rfl
  | true =>
      have hlt : k < e.key := by simpa [behind] using hbehind
      have hclear : acked pushed e = false := by
        by_contra hacked
        obtain ⟨e', he', hkey⟩ := acked_iff (by simpa using hacked)
        have := hpushed e' he'
        rw [hkey] at this
        exact absurd hlt this.not_gt
      simp [hclear]

theorem behind_behind {last : MemoryEntry} (hlast : last ∈ d.behind cursor) :
    d.behind (some last.key) = (d.behind cursor).filter (behind (some last.key)) := by
  unfold DirtyRows.behind
  rw [List.filter_filter]
  refine List.filter_congr fun e _ => ?_
  cases cursor with
  | none => simp [behind]
  | some k =>
      have hk : k < last.key := by
        simpa [behind] using (List.mem_filter.mp hlast).2
      by_cases he : last.key < e.key
      · simp [behind, he, hk.trans he]
      · simp [behind, he]

/-- The keys of the page before end at the cursor. -/
def Follows (cursor : Option RowKey) (previous : Option (List RowKey)) : Prop :=
  ∀ keys, previous = some keys → keys.getLast? = cursor ∧ cursor ≠ none

theorem Follows.fresh {previous : Option (List RowKey)} (h : Follows cursor previous) :
    (!((d.page request cursor).map (·.key)).isEmpty &&
      previous == some ((d.page request cursor).map (·.key))) = false := by
  by_contra hsame
  simp only [Bool.not_eq_false, Bool.and_eq_true, beq_iff_eq] at hsame
  obtain ⟨-, hsame⟩ := hsame
  obtain ⟨hlast, hsome⟩ := h _ hsame
  obtain ⟨k, hk⟩ := Option.ne_none_iff_exists'.mp hsome
  rw [hk, List.getLast?_map, Option.map_eq_some_iff] at hlast
  obtain ⟨e, he, hkey⟩ := hlast
  have hmem := (List.take_sublist _ _).subset (List.mem_of_getLast? he)
  have hlt := (List.mem_filter.mp hmem).2
  rw [← hkey] at hlt
  simp [behind] at hlt

theorem scan_found (hrequest : 0 < request) {passes : Nat} {marked : List MemoryEntry}
    {previous : Option (List RowKey)} (hfollows : Follows cursor previous) :
    (scan lib held pageSize request passes d marked cursor previous).found =
      firstPage (pushable lib held) pageSize request passes (d.behind cursor) := by
  induction passes generalizing d marked cursor previous with
  | zero => rfl
  | succ passes ih =>
      have hpage : (d.behind cursor).take request = d.page request cursor := rfl
      rw [scan, firstPage, hpage, hfollows.fresh]
      dsimp only
      rw [if_neg Bool.false_ne_true]
      have hany : (!((d.page request cursor).filter (pushable lib held)).isEmpty) =
          (d.page request cursor).any (pushable lib held) := by
        rw [Bool.eq_iff_iff]
        simp [List.filter_eq_nil_iff]
      rw [hany]
      split
      · rfl
      · split
        · next hshort =>
            have hend : (d.behind cursor).drop request = [] := by
              rw [List.drop_eq_nil_iff]
              rw [← hpage, List.length_take] at hshort
              omega
            rw [hend, firstPage_nil]
        · next hfull =>
            cases hlast : (d.page request cursor).getLast? with
            | none =>
                rw [List.getLast?_eq_none_iff.mp hlast] at hfull
                exact absurd hrequest hfull
            | some last =>
                have hmem := List.mem_of_getLast? hlast
                have hrest : d.behind (some last.key) = (d.behind cursor).drop request := by
                  rw [behind_behind ((List.take_sublist _ _).subset hmem)]
                  exact behind_last (d.behind_ordered cursor) hlast
                have hle : ∀ e ∈ d.page request cursor, e.key ≤ last.key := by
                  intro e he
                  obtain ⟨init, hinit⟩ := List.getLast?_eq_some_iff.mp hlast
                  have hordered := (d.behind_ordered cursor).sublist (List.take_sublist request _)
                  rw [hpage, hinit] at hordered
                  rw [hinit] at he
                  rcases List.mem_append.mp he with he | he
                  · exact ((List.pairwise_append.mp hordered).2.2 e he last (by simp)).le
                  · rw [List.mem_singleton.mp he]
                dsimp only
                rw [ih]
                · congr 1
                  rw [← hrest]
                  split
                  · rfl
                  · refine behind_markSynced fun e he => hle e ?_
                    exact (List.mem_filter.mp (List.mem_filter.mp he).1).1
                · rintro keys hkeys
                  cases hkeys
                  exact ⟨by rw [List.getLast?_map, hlast]; rfl, nofun⟩

/-- The store after a scan lacks only rows that were marked, and only unedited pulled rows are. -/
structure Marks (lib : Stdlib) (d : DirtyRows) (s : Scan) : Prop where
  kept : s.dirty.rows ⊆ d.rows
  cleared : ∀ e ∈ d.rows, e ∉ s.dirty.rows → e ∈ s.marked
  unedited : ∀ e ∈ s.marked, e ∈ d.rows ∧ isPulled e = true ∧ isEditedHere lib e = false

theorem scan_marks {d₀ : DirtyRows} {passes : Nat} {marked : List MemoryEntry}
    {previous : Option (List RowKey)} (h : Marks lib d₀ ⟨[], d, marked⟩) :
    Marks lib d₀ (scan lib held pageSize request passes d marked cursor previous) := by
  induction passes generalizing d marked cursor previous with
  | zero => exact h
  | succ passes ih =>
      rw [scan]
      dsimp only
      split
      · exact h
      · generalize hunchanged : ((d.page request cursor).filter isPulled).filter
          (!isEditedHere lib ·) = unchanged
        have hclean : ∀ e ∈ unchanged, e ∈ d.rows ∧ isPulled e = true ∧
            isEditedHere lib e = false := by
          rw [← hunchanged]
          intro e he
          obtain ⟨he, hedited⟩ := List.mem_filter.mp he
          obtain ⟨he, hpulled⟩ := List.mem_filter.mp he
          exact ⟨DirtyRows.page_subset he, hpulled, by simpa using hedited⟩
        have hunedited : ∀ e ∈ marked ++ unchanged, e ∈ d₀.rows ∧ isPulled e = true ∧
            isEditedHere lib e = false := by
          intro e he
          rcases List.mem_append.mp he with he | he
          · exact h.unedited e he
          · exact ⟨h.kept (hclean e he).1, (hclean e he).2⟩
        have hnext : Marks lib d₀ ⟨[], if unchanged.isEmpty then d else d.markSynced unchanged,
            marked ++ unchanged⟩ := by
          split
          · refine ⟨h.kept, fun e he hgone => ?_, hunedited⟩
            exact List.mem_append_left _ (h.cleared e he hgone)
          · refine ⟨List.Subset.trans List.filter_sublist.subset h.kept, fun e he hgone => ?_,
              hunedited⟩
            by_cases hin : e ∈ d.rows
            · have hacked : acked unchanged e = true := by
                by_contra hopen
                exact hgone (List.mem_filter.mpr ⟨hin, by simpa using hopen⟩)
              obtain ⟨e', he', hkey⟩ := acked_iff hacked
              rw [← DirtyRows.eq_of_key (hclean e' he').1 hin hkey]
              exact List.mem_append_right _ he'
            · exact List.mem_append_left _ (h.cleared e he hin)
        have hfound (found : List MemoryEntry) : Marks lib d₀ ⟨found,
            if unchanged.isEmpty then d else d.markSynced unchanged, marked ++ unchanged⟩ :=
          ⟨hnext.kept, hnext.cleared, hnext.unedited⟩
        split
        · exact hfound _
        · split
          · exact hnext
          · split
            · exact hnext
            · exact ih hnext

end

/-- A row to push is never hidden by the rows before it, what is returned are the oldest rows to
push, and only pulled rows nobody edited are marked. -/
theorem get_dirty_entries_finds (lib : Stdlib) (held : Held) {pageSize : Nat}
    (hsize : 0 < pageSize) (d : DirtyRows) :
    ((∃ (i : Nat) (e : MemoryEntry), d.rows[i]? = some e ∧ pushable lib held e = true ∧
        i / requestSize held pageSize < pulledCleanPasses) →
      (getDirtyEntries lib held pageSize d).found ≠ []) ∧
    (getDirtyEntries lib held pageSize d).found <+: d.rows.filter (pushable lib held) ∧
    (getDirtyEntries lib held pageSize d).found.length ≤ pageSize ∧
    Marks lib d (getDirtyEntries lib held pageSize d) := by
  have hrequest : 0 < requestSize held pageSize := by
    unfold requestSize maxDirtyPageRequest
    omega
  have hall : d.behind none = d.rows := List.filter_eq_self.mpr fun _ _ => rfl
  have hfound : (getDirtyEntries lib held pageSize d).found =
      firstPage (pushable lib held) pageSize (requestSize held pageSize) pulledCleanPasses
        d.rows := by
    have h : (getDirtyEntries lib held pageSize d).found = _ := scan_found hrequest nofun
    rwa [hall] at h
  rw [hfound]
  refine ⟨?_, firstPage_prefix, firstPage_length, ?_⟩
  · rintro ⟨i, e, hget, he, hpages⟩
    exact firstPage_ne_nil hsize hrequest hget he hpages
  · refine scan_marks ⟨List.Subset.refl _, fun e he hgone => absurd he hgone, ?_⟩
    simp

/-- A pulled row, a held one and one of the author's own. -/
def sampleDirty : DirtyRows where
  rows := [{ id := "team-sync-1", syncSeq := 1 }, { id := "L-1", syncSeq := 2 },
    { id := "L-2", syncSeq := 3 }]
  ordered := by decide

def sampleHeld : Held := [("L-1", [("sync_seq", .int 2)])]

theorem get_dirty_entries_sample :
    pushable decimalStdlib sampleHeld { id := "L-2", syncSeq := 3 } = true ∧
      (getDirtyEntries decimalStdlib sampleHeld 1 sampleDirty).found ≠ [] := by
  have hown : pushable decimalStdlib sampleHeld { id := "L-2", syncSeq := 3 } = true := by decide
  obtain ⟨hnever, -⟩ := get_dirty_entries_finds decimalStdlib sampleHeld Nat.one_pos sampleDirty
  exact ⟨hown, hnever ⟨2, _, rfl, hown, by decide⟩⟩

end TrwMcp.Sync
