import TrwMcp.CodeIndex.Discovery
import TrwMcp.Lib.Run
import Mathlib.Data.List.Dedup

/-!
# A scoped update and a full one

* `mem_walkEntry` — the walk finds a file exactly when nothing on the way to it is pruned.
* `mem_visitLimit` — a limit gives the files of the full walk at or under it, a remembered file
  itself.
* `scoped_rows` — a scoped update publishes the rows of a full one that are in its scopes or were
  known.
-/

namespace TrwMcp.CodeIndex

open Lib

/-! ## Trees -/

theorem Node.ind {motive : Node → Prop} (file : ∀ readable data, motive (.file readable data))
    (dir : ∀ readable entries, (∀ m ∈ entries, motive m.2) → motive (.dir readable entries))
    (symlink : motive .symlink) (other : motive .other) : ∀ node, motive node := by
  intro node
  refine @Node.rec motive (fun entries => ∀ m ∈ entries, motive m.2) (fun m => motive m.2)
    file dir symlink other ?_ ?_ ?_ node
  · simp
  · intro m entries hm hentries n hn
    rcases List.mem_cons.mp hn with rfl | hn
    · exact hm
    · exact hentries n hn
  · exact fun _ _ h => h

/-- A name an entry can have. -/
def ValidName (name : List Char) : Prop :=
  name ≠ [] ∧ '/' ∉ name ∧ name ≠ ['.'] ∧ name ≠ ['.', '.']

mutual

/-- In every directory the names are names, each of one entry. -/
@[grind =] def Node.WellFormed : Node → Prop
  | .dir _ entries => (entries.map (·.1)).Nodup ∧ entriesWellFormed entries
  | _ => True

@[grind =] def entriesWellFormed : List (List Char × Node) → Prop
  | [] => True
  | (name, node) :: entries => ValidName name ∧ node.WellFormed ∧ entriesWellFormed entries

end

theorem wellFormed_of_mem {entries : List (List Char × Node)} (h : entriesWellFormed entries) :
    ∀ m ∈ entries, ValidName m.1 ∧ m.2.WellFormed := by
  induction entries with
  | nil => simp
  | cons m entries ih =>
      obtain ⟨name, node⟩ := m
      simp only [entriesWellFormed] at h
      rintro n hn
      rcases List.mem_cons.mp hn with rfl | hn
      · exact ⟨h.1, h.2.1⟩
      · exact ih h.2.2 n hn

theorem find_append (node : Node) (p q : Parts) :
    find node (p ++ q) = (find node p).bind fun m => find m q := by
  induction p generalizing node with
  | nil => simp [find]
  | cons name p ih =>
      cases node with
      | dir readable entries =>
          simp only [List.cons_append, find]
          cases Dict.lookup entries name with
          | none => rfl
          | some m => exact ih m
      | _ => simp [find]

section

variable {options : UpdateOptions} {root : Node}

/-! ## The walk -/

/-- `pruned`, which the root never is. -/
def prunedAt (options : UpdateOptions) (path : Parts) (node : Node) : Bool :=
  decide (path ≠ []) && pruned options path node

variable (options root) in
/-- The file at `rest` below `node` is found: nothing on the way is pruned or closed. -/
@[grind =] def good (path : Parts) : Node → Parts → Bool
  | .file _ data, [] => considerFile options root path data.length
  | .dir readable entries, name :: rest =>
      !prunedAt options path (.dir readable entries) && readable &&
        (match Dict.lookup entries name with
          | some node => good (path ++ [name]) node rest
          | none => false)
  | _, _ => false

variable (options) in
/-- No directory above the end of `rest` is pruned or closed. -/
@[grind =] def clearTo (path : Parts) : Node → Parts → Bool
  | _, [] => true
  | .dir readable entries, name :: rest =>
      !prunedAt options path (.dir readable entries) && readable &&
        (match Dict.lookup entries name with
          | some node => clearTo (path ++ [name]) node rest
          | none => false)
  | _, _ => false

theorem good_append (path : Parts) (node : Node) (p q : Parts) :
    good options root path node (p ++ q) = true ↔ clearTo options path node p = true ∧
      ∃ m, find node p = some m ∧ good options root (path ++ p) m q = true := by
  induction p generalizing path node with
  | nil => simp [clearTo, find]
  | cons name p ih =>
      cases node with
      | dir readable entries =>
          simp only [List.cons_append, good, clearTo, find]
          cases Dict.lookup entries name with
          | none => simp
          | some m =>
              simp only [Bool.and_eq_true, Option.bind_some, ih, and_assoc]
              simp
      | _ => simp [good, clearTo]

theorem mem_walkEntries {path : Parts} {entries : List (List Char × Node)} {p : Parts} :
    p ∈ walkEntries options root path entries ↔
      ∃ m ∈ entries, p ∈ walkEntry options root (path ++ [m.1]) m.2 := by
  induction entries with
  | nil => simp [walkEntries]
  | cons m entries ih =>
      obtain ⟨name, node⟩ := m
      rw [walkEntries, List.mem_append, ih]
      simp

theorem mem_walkEntry (node : Node) (hwf : node.WellFormed) {path : Parts} (hpath : path ≠ [])
    (p : Parts) : p ∈ walkEntry options root path node ↔
      ∃ rest, p = path ++ rest ∧ good options root path node rest = true := by
  induction node using Node.ind generalizing path p with
  | file readable data =>
      rw [walkEntry]
      constructor
      · intro h
        split at h
        · next hfile => exact ⟨[], by simpa using h, hfile⟩
        · simp at h
      · rintro ⟨rest, rfl, hgood⟩
        cases rest with
        | nil =>
            rw [good] at hgood
            simp [hgood]
        | cons name rest => simp [good] at hgood
  | symlink => simp [walkEntry, good]
  | other => simp [walkEntry, good]
  | dir readable entries ih =>
      simp only [Node.WellFormed] at hwf
      have hmem := wellFormed_of_mem hwf.2
      rw [walkEntry]
      constructor
      · intro h
        split at h
        · simp at h
        · next hopen =>
            simp only [Bool.or_eq_true, Bool.not_eq_true', not_or, Bool.not_eq_true,
              Bool.not_eq_false] at hopen
            obtain ⟨m, hm, hp⟩ := mem_walkEntries.mp h
            obtain ⟨rest, rfl, hgood⟩ := (ih m hm (hmem m hm).2 (by simp) p).mp hp
            refine ⟨m.1 :: rest, by simp, ?_⟩
            have hlookup : Dict.lookup entries m.1 = some m.2 := Dict.lookup_of_mem hwf.1 hm
            obtain ⟨hpruned, rfl⟩ := hopen
            simp [good, prunedAt, hlookup, hpruned, hgood]
      · rintro ⟨rest, rfl, hgood⟩
        cases rest with
        | nil => simp [good] at hgood
        | cons name rest =>
            rw [good, Bool.and_eq_true, Bool.and_eq_true] at hgood
            obtain ⟨⟨hpruned, hreadable⟩, hgood⟩ := hgood
            cases hlookup : Dict.lookup entries name with
            | none => simp [hlookup] at hgood
            | some m =>
                have hin := Dict.mem_of_lookup hlookup
                rw [hlookup] at hgood
                rw [if_neg (by simpa [prunedAt, hpath, hreadable] using hpruned), mem_walkEntries]
                refine ⟨(name, m), hin, (ih _ hin (hmem _ hin).2 (by simp) _).mpr
                  ⟨rest, by simp, hgood⟩⟩

theorem mem_walk {node : Node} (hwf : node.WellFormed) {start p : Parts}
    (hclear : prunedAt options start node = false) (hdir : ∃ readable entries, node = .dir readable entries) :
    p ∈ walk options root start node ↔
      ∃ rest, p = start ++ rest ∧ good options root start node rest = true := by
  obtain ⟨readable, entries, rfl⟩ := hdir
  simp only [Node.WellFormed] at hwf
  have hmem := wellFormed_of_mem hwf.2
  cases readable with
  | false =>
      simp only [walk, List.not_mem_nil, false_iff, not_exists, not_and]
      rintro rest -
      cases rest <;> simp [good]
  | true =>
      rw [walk, mem_walkEntries]
      constructor
      · rintro ⟨m, hm, hp⟩
        obtain ⟨rest, rfl, hgood⟩ := (mem_walkEntry m.2 (hmem m hm).2 (by simp) p).mp hp
        have hlookup : Dict.lookup entries m.1 = some m.2 := Dict.lookup_of_mem hwf.1 hm
        exact ⟨m.1 :: rest, by simp, by simp [good, hclear, hlookup, hgood]⟩
      · rintro ⟨rest, rfl, hgood⟩
        cases rest with
        | nil => simp [good] at hgood
        | cons name rest =>
            rw [good, Bool.and_eq_true] at hgood
            cases hlookup : Dict.lookup entries name with
            | none => simp [hlookup] at hgood
            | some m =>
                have hin := Dict.mem_of_lookup hlookup
                rw [hlookup] at hgood
                exact ⟨(name, m), hin, (mem_walkEntry m (hmem _ hin).2 (by simp) _).mpr
                  ⟨rest, by simp, hgood.2⟩⟩

/-! ## Limits -/

theorem openUnder_of_consider {path : Parts} {size : Nat}
    (h : considerFile options root path size = true) : ∃ data, openUnder root path = some data := by
  unfold considerFile skipAsBinary at h
  cases hopen : openUnder root path with
  | some data => exact ⟨data, rfl⟩
  | none => simp [hopen] at h

theorem consider_of_good {path : Parts} {node : Node} {rest : Parts}
    (h : good options root path node rest = true) :
    ∃ size, considerFile options root (path ++ rest) size = true := by
  induction rest generalizing path node with
  | nil =>
      cases node with
      | file readable data => exact ⟨data.length, by simpa [good] using h⟩
      | _ => simp [good] at h
  | cons name rest ih =>
      cases node with
      | dir readable entries =>
          rw [good, Bool.and_eq_true] at h
          cases hlookup : Dict.lookup entries name with
          | none => simp [hlookup] at h
          | some m =>
              rw [hlookup] at h
              obtain ⟨size, hsize⟩ := ih h.2
              exact ⟨size, by simpa using hsize⟩
      | _ => simp [good] at h

/-- Nothing is pruned on the way to an entry exactly when its ancestry is not, where its directories
can be opened. -/
theorem clearTo_iff {current p rest : Parts} {node m : Node} {data : List UInt8}
    (hcurrent : find root current = some node) (hm : find node p = some m)
    (hopen : openUnder node (p ++ rest) = some data) :
    (clearTo options current node p = true ∧ prunedAt options (current ++ p) m = false) ↔
      prunedAt options current node = false ∧ ancestryPruned options root current p = false := by
  induction p generalizing current node with
  | nil =>
      rw [find, Option.some.injEq] at hm
      subst hm
      simp [clearTo, ancestryPruned]
  | cons name p ih =>
      cases node with
      | dir readable entries =>
          cases readable with
          | false => simp [openUnder] at hopen
          | true =>
              rw [List.cons_append, openUnder, Option.bind_eq_some_iff] at hopen
              obtain ⟨n, hn, hopen⟩ := hopen
              rw [find, hn, Option.bind_some] at hm
              have hnext : find root (current ++ [name]) = some n := by
                rw [find_append, hcurrent, Option.bind_some, find, hn]
                simp [find]
              have ih := ih hnext hm hopen
              rw [List.append_assoc, List.singleton_append] at ih
              have hat : prunedAt options (current ++ [name]) n =
                  pruned options (current ++ [name]) n := by simp [prunedAt]
              rw [clearTo, hn, ancestryPruned, hnext]
              simp only [Bool.and_eq_true, Bool.not_eq_true', Option.any_some, Bool.or_eq_false_iff]
              rw [← hat]
              tauto
      | _ => simp [find] at hm

theorem prunedAt_root (node : Node) : prunedAt options [] node = false := by simp [prunedAt]

theorem find_wellFormed {node m : Node} (hwf : node.WellFormed) {p : Parts}
    (h : find node p = some m) : m.WellFormed := by
  induction p generalizing node with
  | nil =>
      rw [find, Option.some.injEq] at h
      exact h ▸ hwf
  | cons name p ih =>
      cases node with
      | dir readable entries =>
          rw [find, Option.bind_eq_some_iff] at h
          obtain ⟨n, hn, h⟩ := h
          simp only [Node.WellFormed] at hwf
          exact ih (wellFormed_of_mem hwf.2 _ (Dict.mem_of_lookup hn)).2 h
      | _ => simp [find] at h

theorem not_prunedAt_of_good {path rest : Parts} {node : Node}
    (h : good options root path node rest = true) : prunedAt options path node = false := by
  cases node with
  | dir readable entries =>
      cases rest with
      | nil => simp [good] at h
      | cons name rest =>
          rw [good, Bool.and_eq_true, Bool.and_eq_true] at h
          simpa using h.1.1
  | file readable data => simp [prunedAt, pruned]
  | _ => simp [good] at h

theorem limit_of_good {limit rest : Parts}
    (h : good options root [] root (limit ++ rest) = true) :
    ∃ node, find root limit = some node ∧ good options root limit node rest = true ∧
      prunedAt options limit node = false ∧ ancestryPruned options root [] limit = false := by
  obtain ⟨hclear, node, hfind, hgood⟩ := (good_append [] root limit rest).mp h
  rw [List.nil_append] at hgood
  obtain ⟨size, hsize⟩ := consider_of_good hgood
  obtain ⟨data, hopen⟩ := openUnder_of_consider hsize
  have hroot : find root [] = some root := by simp [find]
  have hpruned := not_prunedAt_of_good hgood
  exact ⟨node, hfind, hgood, hpruned,
    ((clearTo_iff hroot hfind hopen).mp ⟨hclear, hpruned⟩).2⟩

theorem good_of_limit {limit rest : Parts} {node : Node} (hfind : find root limit = some node)
    (hanc : ancestryPruned options root [] limit = false)
    (hgood : good options root limit node rest = true) :
    good options root [] root (limit ++ rest) = true := by
  obtain ⟨size, hsize⟩ := consider_of_good hgood
  obtain ⟨data, hopen⟩ := openUnder_of_consider hsize
  have hroot : find root [] = some root := by simp [find]
  obtain ⟨hclear, -⟩ := (clearTo_iff hroot hfind hopen).mpr ⟨prunedAt_root root, hanc⟩
  exact (good_append [] root limit rest).mpr ⟨hclear, node, hfind, hgood⟩

theorem not_pruned_of_ancestry {current p : Parts} {m : Node} (hp : p ≠ [])
    (hanc : ancestryPruned options root current p = false)
    (hm : find root (current ++ p) = some m) : pruned options (current ++ p) m = false := by
  induction p generalizing current with
  | nil => exact absurd rfl hp
  | cons name p ih =>
      rw [ancestryPruned, Bool.or_eq_false_iff] at hanc
      cases p with
      | nil =>
          rw [hm, Option.any_some] at hanc
          exact hanc.1
      | cons next p =>
          have hnext := ih (by simp) hanc.2 (by simpa using hm)
          simpa using hnext

theorem visitLimit_eq (limit : Parts) (fileOnly : Bool) :
    visitLimit options root limit fileOnly =
      match find root limit with
      | none => []
      | some node =>
          if ancestryPruned options root [] limit = true then []
          else
            match node with
            | .file _ data => if considerFile options root limit data.length then [limit] else []
            | .dir _ _ => if fileOnly then [] else walk options root limit node
            | _ => [] := by
  unfold visitLimit
  cases limit with
  | nil =>
      simp only [ancestryPruned]
      rfl
  | cons name limit =>
      simp only [ne_eq, reduceCtorEq, not_false_eq_true, true_and] <;> rfl

theorem mem_visitLimit (hwf : root.WellFormed) {limit p : Parts} :
    p ∈ visitLimit options root limit false ↔
      limit <+: p ∧ good options root [] root p = true := by
  rw [visitLimit_eq]
  constructor
  · intro h
    cases hfind : find root limit with
    | none => simp [hfind] at h
    | some node =>
        rw [hfind] at h
        simp only at h
        split at h
        · simp at h
        · next hanc =>
            rw [Bool.not_eq_true] at hanc
            cases node with
            | file readable data =>
                simp only at h
                split at h
                · next hfile =>
                    rw [List.mem_singleton] at h
                    subst h
                    have hgood := @good_of_limit options root p [] _ hfind hanc
                      (by simpa [good] using hfile)
                    exact ⟨List.prefix_rfl, by simpa using hgood⟩
                · simp at h
            | dir readable entries =>
                simp only [Bool.false_eq_true, if_false] at h
                have hpruned : prunedAt options limit (.dir readable entries) = false := by
                  by_cases hne : limit = []
                  · subst hne
                    exact prunedAt_root _
                  · have hlast := not_pruned_of_ancestry hne hanc (by simpa using hfind)
                    rw [List.nil_append] at hlast
                    simp [prunedAt, hlast]
                obtain ⟨rest, rfl, hgood⟩ :=
                  (mem_walk (find_wellFormed hwf hfind) hpruned ⟨_, _, rfl⟩).mp h
                exact ⟨List.prefix_append _ _, good_of_limit hfind hanc hgood⟩
            | _ => simp at h
  · rintro ⟨⟨rest, rfl⟩, h⟩
    obtain ⟨node, hfind, hgood, hpruned, hanc⟩ := limit_of_good h
    rw [hfind]
    simp only
    rw [if_neg (by simp [hanc])]
    cases node with
    | file readable data =>
        cases rest with
        | nil =>
            rw [good] at hgood
            simp [hgood]
        | cons name rest => simp [good] at hgood
    | dir readable entries =>
        simp only [Bool.false_eq_true, if_false]
        exact (mem_walk (find_wellFormed hwf hfind) hpruned ⟨_, _, rfl⟩).mpr ⟨rest, rfl, hgood⟩
    | _ => simp [good] at hgood

theorem mem_visitLimit_file {limit p : Parts} :
    p ∈ visitLimit options root limit true ↔
      p = limit ∧ good options root [] root p = true := by
  rw [visitLimit_eq]
  constructor
  · intro h
    cases hfind : find root limit with
    | none => simp [hfind] at h
    | some node =>
        rw [hfind] at h
        simp only at h
        split at h
        · simp at h
        · next hanc =>
            rw [Bool.not_eq_true] at hanc
            cases node with
            | file readable data =>
                simp only at h
                split at h
                · next hfile =>
                    rw [List.mem_singleton] at h
                    subst h
                    have hgood := @good_of_limit options root p [] _ hfind hanc
                      (by simpa [good] using hfile)
                    exact ⟨rfl, by simpa using hgood⟩
                · simp at h
            | _ => simp at h
  · rintro ⟨rfl, h⟩
    obtain ⟨node, hfind, hgood, -, hanc⟩ := @limit_of_good options root p [] (by simpa using h)
    rw [hfind]
    simp only
    rw [if_neg (by simp [hanc])]
    cases node with
    | file readable data =>
        rw [good] at hgood
        simp [hgood]
    | _ => simp [good] at hgood

theorem mem_fullWalk (hwf : root.WellFormed) {p : Parts} :
    p ∈ walk options root [] root ↔ good options root [] root p = true := by
  cases root with
  | dir readable entries =>
      rw [mem_walk hwf (prunedAt_root _) ⟨_, _, rfl⟩]
      simp
  | file readable data => cases p <;> simp [walk, good, considerFile]
  | _ => simp [walk, good]

theorem validNames_of_good {node : Node} (hwf : node.WellFormed) {path p : Parts}
    (h : good options root path node p = true) : ∀ name ∈ p, ValidName name := by
  induction p generalizing path node with
  | nil => simp
  | cons name p ih =>
      cases node with
      | dir readable entries =>
          rw [good, Bool.and_eq_true] at h
          cases hlookup : Dict.lookup entries name with
          | none => simp [hlookup] at h
          | some m =>
              rw [hlookup] at h
              simp only [Node.WellFormed] at hwf
              have hmem := wellFormed_of_mem hwf.2 _ (Dict.mem_of_lookup hlookup)
              rintro other hother
              rcases List.mem_cons.mp hother with rfl | hother
              · exact hmem.1
              · exact ih hmem.2 h.2 other hother
      | _ => simp [good] at h

theorem ne_nil_of_good {p : Parts} (h : good options root [] root p = true) : p ≠ [] := by
  rintro rfl
  cases root <;> simp [good, considerFile] at h

end

/-! ## Paths as texts -/

/-- A part of a path: what a name is, but for `..`. -/
def IsPart (part : List Char) : Prop := part ≠ [] ∧ '/' ∉ part ∧ part ≠ ['.']

theorem ValidName.isPart {name : List Char} (h : ValidName name) : IsPart name :=
  ⟨h.1, h.2.1, h.2.2.1⟩

theorem slash_not_mem {text part : List Char} (h : part ∈ text.splitOnP (· = '/')) :
    '/' ∉ part := by
  induction text generalizing part with
  | nil =>
      rw [List.splitOnP_nil, List.mem_singleton] at h
      simp [h]
  | cons c text ih =>
      rw [List.splitOnP_cons_eq_if_modifyHead] at h
      obtain ⟨first, rest, hsplit⟩ :=
        List.exists_cons_of_ne_nil (List.splitOnP_ne_nil (fun c => decide (c = '/')) text)
      split at h
      · rcases List.mem_cons.mp h with rfl | hrest
        · simp
        · exact ih hrest
      · next hc =>
          rw [hsplit, List.modifyHead_cons] at h
          rcases List.mem_cons.mp h with rfl | hrest
          · have hfirst := ih (by rw [hsplit]; exact List.mem_cons_self)
            simp only [List.mem_cons, not_or]
            exact ⟨fun heq => hc (by simp [← heq]), hfirst⟩
          · exact ih (by rw [hsplit]; exact List.mem_cons_of_mem _ hrest)

theorem isPart_of_posixParts {text : List Char} : ∀ part ∈ posixParts text, IsPart part := by
  intro part hpart
  rw [posixParts, List.mem_filter, decide_eq_true_eq] at hpart
  exact ⟨hpart.2.1, slash_not_mem hpart.1, hpart.2.2⟩

theorem posixParts_part {part : List Char} (h : IsPart part) : posixParts part = [part] := by
  have hsplit : part.splitOnP (fun c => decide (c = '/')) = [part] :=
    List.splitOnP_eq_singleton fun c hc => by
      rw [decide_eq_false_iff_not]
      rintro rfl
      exact h.2.1 hc
  rw [posixParts, hsplit]
  simp [h.1, h.2.2]

theorem posixParts_cons {part : List Char} (h : IsPart part) (rest : List Char) :
    posixParts (part ++ '/' :: rest) = part :: posixParts rest := by
  have hsplit : (part ++ '/' :: rest).splitOnP (fun c => decide (c = '/')) =
      part :: rest.splitOnP (fun c => decide (c = '/')) :=
    List.splitOnP_append_cons_of_forall_mem (fun c hc => by
      rw [decide_eq_false_iff_not]
      rintro rfl
      exact h.2.1 hc) '/' (by simp) rest
  rw [posixParts, hsplit, List.filter_cons, if_pos (by simp [h.1, h.2.2])]
  rfl

theorem asPosix_cons {part : List Char} {rest : Parts} (h : rest ≠ []) :
    asPosix (part :: rest) = part ++ '/' :: asPosix rest := by
  cases rest with
  | nil => exact absurd rfl h
  | cons next rest => rfl

theorem posixParts_asPosix {p : Parts} (hp : p ≠ []) (h : ∀ part ∈ p, IsPart part) :
    posixParts (asPosix p) = p ∧
      ∀ rest, posixParts (asPosix p ++ '/' :: rest) = p ++ posixParts rest := by
  induction p with
  | nil => exact absurd rfl hp
  | cons part p ih =>
      have hpart := h part (by simp)
      by_cases hnil : p = []
      · subst hnil
        exact ⟨posixParts_part hpart, fun rest => posixParts_cons hpart rest⟩
      · obtain ⟨hself, hmore⟩ := ih hnil fun q hq => h q (List.mem_cons_of_mem _ hq)
        rw [asPosix_cons hnil]
        refine ⟨by rw [posixParts_cons hpart, hself], fun rest => ?_⟩
        rw [List.append_assoc, List.cons_append, posixParts_cons hpart, hmore, List.cons_append]

theorem asPosix_append {p q : Parts} (hp : p ≠ []) (hq : q ≠ []) :
    asPosix (p ++ q) = asPosix p ++ '/' :: asPosix q := by
  induction p with
  | nil => exact absurd rfl hp
  | cons part p ih =>
      by_cases hnil : p = []
      · subst hnil
        rw [List.singleton_append, asPosix_cons hq]
        rfl
      · rw [List.cons_append, asPosix_cons (by simp [hnil]), ih hnil, asPosix_cons hnil]
        simp

theorem under_of_text {s : Parts} (hs : s ≠ []) (hparts : ∀ part ∈ s, IsPart part)
    {text : List Char} (h : text = asPosix s ∨ asPosix s ++ ['/'] <+: text) :
    s <+: posixParts text := by
  obtain ⟨hself, hmore⟩ := posixParts_asPosix hs hparts
  rcases h with rfl | ⟨rest, rfl⟩
  · rw [hself]
  · rw [List.append_assoc, List.singleton_append, hmore]
    exact List.prefix_append _ _

theorem text_of_under {s p : Parts} (hs : s ≠ []) (h : s <+: p) :
    asPosix p = asPosix s ∨ asPosix s ++ ['/'] <+: asPosix p := by
  obtain ⟨rest, rfl⟩ := h
  by_cases hrest : rest = []
  · subst hrest
    exact .inl (by simp)
  · rw [asPosix_append hs hrest]
    exact .inr ⟨asPosix rest, by simp⟩

/-! ## Scopes -/

theorem mem_normalizeScopes {paths scopes : List (List Char)}
    (h : normalizeScopes paths = some scopes) (scope : List Char) : scope ∈ scopes ↔
      ∃ raw ∈ paths, ∃ parts, parts ≠ [] ∧ relativeParts (cleanScope raw) = some parts ∧
        scope = asPosix parts := by
  induction paths generalizing scopes with
  | nil =>
      rw [normalizeScopes, Option.some.injEq] at h
      simp [← h]
  | cons raw paths ih =>
      rw [normalizeScopes] at h
      split at h
      · next hnone =>
          rw [ih h]
          simp [hnone]
      · simp at h
      · next parts hparts hsome =>
          rw [Option.map_eq_some_iff] at h
          obtain ⟨rest, hrest, rfl⟩ := h
          have hne : parts ≠ [] := hparts
          rw [List.mem_cons, List.mem_filter, ih hrest]
          simp only [List.mem_cons, exists_eq_or_imp, hsome, Option.some.injEq]
          constructor
          · rintro (rfl | ⟨hscope, -⟩)
            · exact .inl ⟨parts, hne, rfl, rfl⟩
            · exact .inr hscope
          · rintro (⟨found, -, rfl, rfl⟩ | hscope)
            · exact .inl rfl
            · by_cases heq : scope = asPosix parts
              · exact .inl heq
              · exact .inr ⟨hscope, by simpa using heq⟩

theorem root_limit {paths : List (List Char)} (h : normalizeScopes paths = none) :
    ∃ raw ∈ paths, relativeParts (cleanScope raw) = some [] := by
  induction paths with
  | nil => simp [normalizeScopes] at h
  | cons raw paths ih =>
      rw [normalizeScopes] at h
      split at h
      · obtain ⟨found, hfound, hnil⟩ := ih h
        exact ⟨found, List.mem_cons_of_mem _ hfound, hnil⟩
      · next hnil => exact ⟨raw, by simp, hnil⟩
      · rw [Option.map_eq_none_iff] at h
        obtain ⟨found, hfound, hnil⟩ := ih h
        exact ⟨found, List.mem_cons_of_mem _ hfound, hnil⟩

theorem limit_ne_nil {paths scopes : List (List Char)} (h : normalizeScopes paths = some scopes)
    {raw : List Char} (hraw : raw ∈ paths) : relativeParts (cleanScope raw) ≠ some [] := by
  induction paths generalizing scopes with
  | nil => simp at hraw
  | cons first paths ih =>
      rw [normalizeScopes] at h
      split at h
      · next hnone =>
          rcases List.mem_cons.mp hraw with rfl | hraw
          · simp [hnone]
          · exact ih h hraw
      · simp at h
      · next parts hparts hsome =>
          rw [Option.map_eq_some_iff] at h
          obtain ⟨rest, hrest, -⟩ := h
          rcases List.mem_cons.mp hraw with rfl | hraw
          · rw [hsome]
            exact fun heq => hparts (Option.some.inj heq)
          · exact ih hrest hraw

theorem relativeParts_some {text : List Char} {parts : Parts} (h : relativeParts text = some parts) :
    parts = posixParts text := by
  unfold relativeParts at h
  split at h
  · simp at h
  · exact (Option.some.inj h).symm

theorem pathIsInScope_iff {paths scopes : List (List Char)}
    (h : normalizeScopes paths = some scopes) (path : List Char) :
    pathIsInScope path scopes = true ↔ ∃ raw ∈ paths, ∃ parts, parts ≠ [] ∧
      relativeParts (cleanScope raw) = some parts ∧
        (path = asPosix parts ∨ asPosix parts ++ ['/'] <+: path) := by
  rw [pathIsInScope, List.any_eq_true]
  simp only [mem_normalizeScopes h, Bool.or_eq_true, decide_eq_true_eq,
    List.isPrefixOf_iff_prefix]
  constructor
  · rintro ⟨scope, ⟨raw, hraw, parts, hne, hparts, rfl⟩, hpath⟩
    exact ⟨raw, hraw, parts, hne, hparts, hpath⟩
  · rintro ⟨raw, hraw, parts, hne, hparts, hpath⟩
    exact ⟨_, ⟨raw, hraw, parts, hne, hparts, rfl⟩, hpath⟩

/-! ## The rows -/

section

variable {options : UpdateOptions} {root : Node}

theorem mem_discover_full (hwf : root.WellFormed) {p : Parts} :
    p ∈ discoverIndexableFiles options root none [] ↔ good options root [] root p = true := by
  rw [discoverIndexableFiles]
  simp [mem_fullWalk hwf]

/-- What a run over limits and remembered files finds: of the files of the full walk, those under a
limit, and the remembered ones. -/
theorem mem_discover_scoped (hwf : root.WellFormed) {paths files : List (List Char)} {p : Parts} :
    p ∈ discoverIndexableFiles options root (some paths) files ↔
      good options root [] root p = true ∧
        ((∃ raw ∈ paths, ∃ limit, relativeParts (cleanScope raw) = some limit ∧ limit <+: p) ∨
          ∃ known ∈ files, relativeParts known = some p) := by
  simp only [discoverIndexableFiles, List.mem_insertionSort, List.mem_dedup, List.mem_append,
    List.mem_flatMap, List.mem_filterMap, mem_visitLimit hwf]
  constructor
  · rintro (⟨limit, ⟨raw, hraw, hlimit⟩, hunder, hgood⟩ | ⟨limit, ⟨known, hknown, hlimit⟩, hp⟩)
    · exact ⟨hgood, .inl ⟨raw, hraw, limit, hlimit, hunder⟩⟩
    · split at hp
      · simp at hp
      · obtain ⟨rfl, hgood⟩ := mem_visitLimit_file.mp hp
        exact ⟨hgood, .inr ⟨known, hknown, hlimit⟩⟩
  · rintro ⟨hgood, ⟨raw, hraw, limit, hlimit, hunder⟩ | ⟨known, hknown, hlimit⟩⟩
    · exact .inl ⟨limit, ⟨raw, hraw, hlimit⟩, hunder, hgood⟩
    · refine .inr ⟨p, ⟨known, hknown, hlimit⟩, ?_⟩
      rw [if_neg (ne_nil_of_good hgood)]
      exact mem_visitLimit_file.mpr ⟨rfl, hgood⟩

variable (options root) in
/-- The row of a file. -/
def rowOf (path : Parts) : Option CodeIndexFileRow :=
  (readIndexedFile root path options.walkBytes).map fun data => ⟨asPosix path, options.sha256 data⟩

/-- The path lies in a scope of the list: any does in a whole-tree one. -/
def LiesIn (paths : List (List Char)) (path : List Char) : Prop :=
  match normalizeScopes paths with
  | none => True
  | some scopes => pathIsInScope path scopes = true

/-- The path was in the manifest, in some spelling of it. -/
def WasKnown (previous : List (List Char)) (path : List Char) : Prop :=
  ∃ known ∈ previous, relativeParts known = some (posixParts path)

/-- Of the files of the full walk, a scoped run finds those in its scopes and those that were
known. -/
theorem mem_discover_update (hwf : root.WellFormed) {paths previous : List (List Char)} {p : Parts} :
    p ∈ discoverIndexableFiles options root (some paths)
        (match normalizeScopes paths with
          | none => []
          | some scopes => previous.filter fun path => !pathIsInScope path scopes) ↔
      good options root [] root p = true ∧
        (LiesIn paths (asPosix p) ∨ WasKnown previous (asPosix p)) := by
  rw [mem_discover_scoped hwf]
  refine and_congr_right fun hgood => ?_
  have hne := ne_nil_of_good hgood
  have hself : posixParts (asPosix p) = p := (posixParts_asPosix hne fun part hpart =>
    (validNames_of_good hwf hgood part hpart).isPart).1
  unfold LiesIn WasKnown
  rw [hself]
  cases hscopes : normalizeScopes paths with
  | none =>
      obtain ⟨raw, hraw, hnil⟩ := root_limit hscopes
      simp only [true_or, iff_true]
      exact .inl ⟨raw, hraw, [], hnil, List.nil_prefix⟩
  | some scopes =>
      have hscope := pathIsInScope_iff hscopes
      have hparts : ∀ {raw parts}, relativeParts (cleanScope raw) = some parts →
          ∀ part ∈ parts, IsPart part := fun h => relativeParts_some h ▸ isPart_of_posixParts
      constructor
      · rintro (⟨raw, hraw, limit, hlimit, hunder⟩ | ⟨known, hknown, hlimit⟩)
        · have hnil : limit ≠ [] := fun heq => limit_ne_nil hscopes hraw (heq ▸ hlimit)
          exact .inl ((hscope _).mpr ⟨raw, hraw, limit, hnil, hlimit, text_of_under hnil hunder⟩)
        · exact .inr ⟨known, (List.mem_filter.mp hknown).1, hlimit⟩
      · rintro (hin | ⟨known, hknown, hlimit⟩)
        · obtain ⟨raw, hraw, parts, hnil, hlimit, htext⟩ := (hscope _).mp hin
          have hunder := under_of_text hnil (hparts hlimit) htext
          rw [hself] at hunder
          exact .inl ⟨raw, hraw, parts, hlimit, hunder⟩
        · by_cases hin : pathIsInScope known scopes = true
          · obtain ⟨raw, hraw, parts, hnil, hparts', htext⟩ := (hscope _).mp hin
            have hunder := under_of_text hnil (hparts hparts') htext
            rw [← relativeParts_some hlimit] at hunder
            exact .inl ⟨raw, hraw, parts, hparts', hunder⟩
          · exact .inr ⟨known, List.mem_filter.mpr ⟨hknown, by simpa using hin⟩, hlimit⟩

variable (options root) in
/-- The rows of the files a run finds. -/
def rowsFound (paths : Option (List (List Char))) (previous : List (List Char)) :
    List CodeIndexFileRow :=
  (discoverIndexableFiles options root paths
    (match paths.bind normalizeScopes with
      | none => []
      | some scopes => previous.filter fun path => !pathIsInScope path scopes)).filterMap
        (rowOf options root)

theorem update_eq (paths : Option (List (List Char))) (previous : List (List Char)) :
    updateCodeIndex options root paths previous =
      if (rowsFound options root paths previous).all (fun row => validRowPath row.path) then
        some (rowsFound options root paths previous)
      else none := rfl

theorem update_eq_some {paths : Option (List (List Char))} {previous : List (List Char)}
    {rows : List CodeIndexFileRow} : updateCodeIndex options root paths previous = some rows ↔
      rowsFound options root paths previous = rows ∧
        ∀ row ∈ rows, validRowPath row.path = true := by
  rw [update_eq]
  constructor
  · intro h
    split at h
    · next hvalid =>
        rw [Option.some.injEq] at h
        subst h
        exact ⟨rfl, List.all_eq_true.mp hvalid⟩
    · simp at h
  · rintro ⟨rfl, hvalid⟩
    exact if_pos (List.all_eq_true.mpr hvalid)

/-- A scoped update publishes the rows of a full one of the same tree that lie in its scopes or were
known, under any spelling of their paths, by the manifest before. -/
theorem scoped_rows (hwf : root.WellFormed) (paths previous : List (List Char))
    {before : List (List Char)} {full : List CodeIndexFileRow}
    (hfull : updateCodeIndex options root none before = some full) :
    ∃ rows, updateCodeIndex options root (some paths) previous = some rows ∧
      ∀ row, row ∈ rows ↔
        row ∈ full ∧ (LiesIn paths row.path ∨ WasKnown previous row.path) := by
  obtain ⟨rfl, hvalid⟩ := update_eq_some.mp hfull
  have hmem : ∀ row, row ∈ rowsFound options root (some paths) previous ↔
      row ∈ rowsFound options root none before ∧
        (LiesIn paths row.path ∨ WasKnown previous row.path) := by
    intro row
    have hpath : ∀ {p}, rowOf options root p = some row → row.path = asPosix p := by
      intro p hrow
      simp only [rowOf, Option.map_eq_some_iff] at hrow
      obtain ⟨data, -, rfl⟩ := hrow
      rfl
    simp only [rowsFound, Option.bind_some, Option.bind_none, List.mem_filterMap]
    constructor
    · rintro ⟨p, hp, hrow⟩
      rw [mem_discover_update hwf] at hp
      rw [hpath hrow]
      exact ⟨⟨p, (mem_discover_full hwf).mpr hp.1, hrow⟩, hp.2⟩
    · rintro ⟨⟨p, hp, hrow⟩, hkept⟩
      rw [hpath hrow] at hkept
      exact ⟨p, (mem_discover_update hwf).mpr ⟨(mem_discover_full hwf).mp hp, hkept⟩, hrow⟩
  exact ⟨_, update_eq_some.mpr ⟨rfl, fun row hrow => hvalid row ((hmem row).mp hrow).1⟩, hmem⟩

end

def sampleOptions : UpdateOptions where
  excludeDirs := [".trw".toList]
  includeExtensions := [".py".toList]
  maxFileBytes := 1000000
  lower := List.map Char.toLower
  sha256 data := toString data.length

/-- A tree of two files, `a.py` and `src/b.py`. -/
def sampleTree : Node :=
  .dir true [("a.py".toList, .file true [120]),
    ("src".toList, .dir true [("b.py".toList, .file true [120, 121])])]

theorem sampleTree_wellFormed : sampleTree.WellFormed := by
  simp [sampleTree, Node.WellFormed, entriesWellFormed, ValidName]

theorem scoped_rows_sample :
    ∃ rows, updateCodeIndex sampleOptions sampleTree (some ["src".toList]) ["a.py".toList] =
        some rows ∧
      ∀ row, row ∈ rows ↔
        row ∈ [CodeIndexFileRow.mk "a.py".toList "1", ⟨"src/b.py".toList, "2"⟩] ∧
          (LiesIn ["src".toList] row.path ∨ WasKnown ["a.py".toList] row.path) :=
  @scoped_rows _ _ sampleTree_wellFormed _ _ [] _ (by decide)

/-- A manifest that spells a path in another way brings in a row whose path it does not have. -/
theorem other_spelling_added :
    validRowPath "./a.py".toList = true ∧
      updateCodeIndex sampleOptions sampleTree (some ["src".toList]) ["./a.py".toList] =
        some [⟨"a.py".toList, "1"⟩, ⟨"src/b.py".toList, "2"⟩] ∧
      updateCodeIndex sampleOptions sampleTree none ["./a.py".toList] =
        some [⟨"a.py".toList, "1"⟩, ⟨"src/b.py".toList, "2"⟩] ∧
      ¬ ∀ row : CodeIndexFileRow,
        row ∈ [CodeIndexFileRow.mk "a.py".toList "1", ⟨"src/b.py".toList, "2"⟩] ↔
          row ∈ [CodeIndexFileRow.mk "a.py".toList "1", ⟨"src/b.py".toList, "2"⟩] ∧
            (LiesIn ["src".toList] row.path ∨ row.path ∈ ["./a.py".toList]) := by
  refine ⟨by decide, by decide, by decide, fun h => ?_⟩
  have hrow := ((h ⟨"a.py".toList, "1"⟩).mp (by simp)).2
  rcases hrow with hin | hknown
  · have hout : normalizeScopes ["src".toList] = some ["src".toList] ∧
        pathIsInScope "a.py".toList ["src".toList] = false := by decide
    simp only [LiesIn, hout.1, hout.2] at hin
    simp at hin
  · simp at hknown

/-! ## Scoped updates one after another -/

section

variable {options : UpdateOptions} {root : Node} {full rows : List CodeIndexFileRow}

/-- The text of a path of names. -/
def IsPosix (path : List Char) : Prop :=
  ∃ p : Parts, p ≠ [] ∧ (∀ name ∈ p, ValidName name) ∧ path = asPosix p

theorem rowOf_path {p : Parts} {row : CodeIndexFileRow} (h : rowOf options root p = some row) :
    row.path = asPosix p := by
  obtain ⟨data, -, rfl⟩ := Option.map_eq_some_iff.mp h
  rfl

theorem mem_rowsFound_scoped (hwf : root.WellFormed) {paths previous : List (List Char)}
    {row : CodeIndexFileRow} : row ∈ rowsFound options root (some paths) previous ↔
      row ∈ rowsFound options root none [] ∧
        (LiesIn paths row.path ∨ WasKnown previous row.path) := by
  simp only [rowsFound, Option.bind_some, Option.bind_none, List.mem_filterMap,
    mem_discover_update hwf, mem_discover_full hwf]
  constructor
  · rintro ⟨p, ⟨hgood, hkept⟩, hrow⟩
    rw [← rowOf_path hrow] at hkept
    exact ⟨⟨p, hgood, hrow⟩, hkept⟩
  · rintro ⟨⟨p, hgood, hrow⟩, hkept⟩
    rw [rowOf_path hrow] at hkept
    exact ⟨p, ⟨hgood, hkept⟩, hrow⟩

theorem isPosix_of_mem_full (hwf : root.WellFormed)
    (hfull : updateCodeIndex options root none [] = some full) :
    ∀ path ∈ full.map (·.path), IsPosix path := by
  intro path hpath
  obtain ⟨row, hrow, rfl⟩ := List.mem_map.mp hpath
  obtain ⟨rfl, -⟩ := update_eq_some.mp hfull
  obtain ⟨p, hp, hrow⟩ := List.mem_filterMap.mp hrow
  have hgood := (mem_discover_full hwf).mp hp
  exact ⟨p, ne_nil_of_good hgood, validNames_of_good hwf hgood, rowOf_path hrow⟩

theorem IsPosix.relativeParts {path : List Char} (h : IsPosix path) :
    relativeParts path = some (posixParts path) := by
  obtain ⟨p, hne, hnames, rfl⟩ := h
  have hself := (posixParts_asPosix hne fun name hname => (hnames name hname).isPart).1
  rw [CodeIndex.relativeParts, if_neg]
  rintro (hroot | hparent)
  · cases p with
    | nil => exact hne rfl
    | cons name rest =>
        have hname := hnames name (by simp)
        by_cases hrest : rest = []
        · rw [hrest] at hroot
          exact hname.2.1 (List.mem_of_mem_head? hroot)
        · rw [asPosix_cons hrest, List.head?_append_of_ne_nil _ hname.1] at hroot
          exact hname.2.1 (List.mem_of_mem_head? hroot)
  · rw [hself] at hparent
    exact (hnames _ hparent).2.2.2 rfl

theorem IsPosix.eq_of_parts {path path' : List Char} (h : IsPosix path) (h' : IsPosix path')
    (hparts : posixParts path = posixParts path') : path = path' := by
  obtain ⟨p, hne, hnames, rfl⟩ := h
  obtain ⟨p', hne', hnames', rfl⟩ := h'
  rw [(posixParts_asPosix hne fun name hname => (hnames name hname).isPart).1,
    (posixParts_asPosix hne' fun name hname => (hnames' name hname).isPart).1] at hparts
  rw [hparts]

/-- Of paths of names the manifest knows only those it lists. -/
theorem wasKnown_iff {previous : List (List Char)} (hprevious : ∀ known ∈ previous, IsPosix known)
    {path : List Char} (hpath : IsPosix path) : WasKnown previous path ↔ path ∈ previous := by
  constructor
  · rintro ⟨known, hknown, hparts⟩
    rw [(hprevious known hknown).relativeParts, Option.some.injEq] at hparts
    rwa [← (hprevious known hknown).eq_of_parts hpath hparts]
  · exact fun hmem => ⟨path, hmem, hpath.relativeParts⟩

variable (options) in
/-- The rows of a full update. -/
def fullRows (root : Node) : List CodeIndexFileRow := (updateCodeIndex options root none []).getD []

variable (options) in
/-- A scoped update of the tree as it is then, over the manifest of the update before. -/
def ScopedStep (rows : List CodeIndexFileRow) (update : Node × List (List Char))
    (rows' : List CodeIndexFileRow) : Prop :=
  update.1.WellFormed ∧ (updateCodeIndex options update.1 none []).isSome = true ∧
    updateCodeIndex options update.1 (some update.2) (rows.map (·.path)) = some rows'

/-- Some update of the run had the path in its scopes, and the file was there and eligible at that
update and at every later one. -/
def Followed (options : UpdateOptions) (updates : List (Node × List (List Char)))
    (path : List Char) : Prop :=
  ∃ before update later, updates = before ++ update :: later ∧ LiesIn update.2 path ∧
    ∀ u ∈ update :: later, path ∈ (fullRows options u.1).map (·.path)

theorem followed_snoc {updates : List (Node × List (List Char))} {update : Node × List (List Char)}
    {path : List Char} : Followed options (updates ++ [update]) path ↔
      path ∈ (fullRows options update.1).map (·.path) ∧
        (LiesIn update.2 path ∨ Followed options updates path) := by
  constructor
  · rintro ⟨before, u, later, hsplit, hin, hthere⟩
    rcases List.eq_nil_or_concat later with rfl | ⟨later, last, rfl⟩
    · obtain ⟨-, heq⟩ := List.append_inj' hsplit rfl
      obtain rfl := List.cons.inj heq |>.1
      exact ⟨hthere _ (by simp), .inl hin⟩
    · rw [List.concat_eq_append] at hsplit hthere
      rw [← List.cons_append, ← List.append_assoc] at hsplit
      obtain ⟨rfl, heq⟩ := List.append_inj' hsplit rfl
      obtain rfl := List.cons.inj heq |>.1
      exact ⟨hthere _ (by simp), .inr ⟨before, u, later, rfl, hin, fun v hv =>
        hthere v (List.mem_append_left [update] hv)⟩⟩
  · rintro ⟨hnow, hin | ⟨before, u, later, rfl, hin, hthere⟩⟩
    · exact ⟨updates, update, [], rfl, hin, by simpa using hnow⟩
    · refine ⟨before, u, later ++ [update], by simp, hin, fun v hv => ?_⟩
      rw [← List.cons_append, List.mem_append, List.mem_singleton] at hv
      rcases hv with hv | rfl
      · exact hthere v hv
      · exact hnow

theorem Followed.last {updates : List (Node × List (List Char))} {path : List Char}
    (h : Followed options updates path) : ∃ last, updates.getLast? = some last ∧
      path ∈ (fullRows options last.1).map (·.path) := by
  obtain ⟨before, update, later, rfl, -, hthere⟩ := h
  refine ⟨(update :: later).getLast (List.cons_ne_nil _ _), ?_, hthere _ (List.getLast_mem _)⟩
  rw [List.getLast?_append_cons, List.getLast?_eq_getLast_of_ne_nil]

end

end TrwMcp.CodeIndex
