import Mathlib.Algebra.Order.BigOperators.Group.List
import Mathlib.Algebra.Order.Group.Nat
import Mathlib.Data.List.Dedup
import TrwMcp.Lib.Dict
import TrwMcp.Lib.Regex
import TrwMcp.Lib.Except

/-!
# The tree of a candidate commit

What `publish_reviewed_candidate` reads off the shared worktree and commits. The worktree is read
once for each owned path by the hooks' tree, by `validate_ownership` and by the candidate's tree, and
other writers edit it between any two reads, so each read has a worktree of its own.
-/

namespace TrwMcp.GitTxn

open Lib

/-- `100644`, `100755`, `120000` -/
inductive Mode where
  | regular
  | executable
  | symlink
deriving DecidableEq

/-- An entry of a tree; the bytes of a symlink are its target. -/
structure Entry where
  mode : Mode
  bytes : List UInt8
deriving DecidableEq

/-- A file of the worktree; a dangling symlink is there and does not `exist()`. -/
structure WorkFile where
  entry : Entry
  dangling : Bool := false
deriving DecidableEq

abbrev Tree := Dict String Entry

abbrev Worktree := Dict String WorkFile

/-- The fields of the manifest that the tree depends on. -/
structure OwnershipManifest where
  ownedPaths : List String
  pathDigests : Dict String String
deriving DecidableEq

def OwnershipManifest.declaredAbsent (m : OwnershipManifest) (path : String) : Bool :=
  Dict.lookup m.pathDigests path = some ""

/-! ## What Git prints -/

/-- The characters a path is printed with as they are. -/
def plainChar (c : Char) : Bool :=
  32 ≤ c.toNat && c.toNat < 127 && c != '"' && c != '\\'

def octalDigit (n : Nat) : Char := Char.ofNat (48 + n % 8)

def octal (b : UInt8) : List Char :=
  ['\\', octalDigit (b.toNat / 64), octalDigit (b.toNat / 8), octalDigit b.toNat]

/-- One character of a quoted path. -/
def quoteChar (c : Char) : List Char :=
  if plainChar c then [c]
  else
    match c with
    | '"' => ['\\', '"']
    | '\\' => ['\\', '\\']
    | '\x07' => ['\\', 'a']
    | '\x08' => ['\\', 'b']
    | '\t' => ['\\', 't']
    | '\n' => ['\\', 'n']
    | '\x0b' => ['\\', 'v']
    | '\x0c' => ['\\', 'f']
    | '\r' => ['\\', 'r']
    | c => (String.utf8EncodeChar c).flatMap octal

/-- A path as `--name-only` prints it. -/
def quotePath (path : List Char) : List Char :=
  if path.all plainChar then path else '"' :: (path.flatMap quoteChar ++ ['"'])

/-- The output of `git diff-tree --name-only`: one path a line. -/
def printNames (paths : List String) : List Char :=
  paths.flatMap fun p => quotePath p.toList ++ ['\n']

/-- `text.split()` -/
def pySplit (text : List Char) : List (List Char) :=
  (text.splitOnP Regex.isSpace).filter (· ≠ [])

/-- The paths in which two trees differ. -/
def diffTree (old new : Tree) : List String :=
  (((old ++ new).map (·.1)).dedup).filter fun p => Dict.lookup old p ≠ Dict.lookup new p

/-- `owned_paths` of the handoff -/
def handoffPaths (parent tree : Tree) : List String :=
  (pySplit (printNames (diffTree parent tree))).map String.ofList

/-! ## Building and validating -/

section

variable (sha256 : List UInt8 → String) (pathspec : String → String → Bool)

/-- `git update-index --force-remove -- path`, or `git add --force -- path`, which stages every path
of the worktree and of the index that the pathspec matches. -/
def stagePath (m : OwnershipManifest) (view : Worktree) (tree : Tree) (path : String) :
    Except String Tree :=
  if m.declaredAbsent path then .ok (tree.filter fun e => e.1 ≠ path)
  else if (tree.map (·.1)).any (pathspec path) || (view.map (·.1)).any (pathspec path) then
    .ok ((tree.filter fun e => !pathspec path e.1) ++
      (view.filter fun f => pathspec path f.1).map fun f => (f.1, f.2.entry))
  else .error "git add failed: pathspec did not match any files"

/-- The tree of a private index rooted at the parent; `views` is the worktree as each read finds
it. -/
def buildTree (m : OwnershipManifest) (views : String → Worktree) (parent : Tree) :
    Except String Tree :=
  m.ownedPaths.foldlM (fun tree path => stagePath pathspec m (views path) tree path) parent

/-- `Path(path).is_absolute()` or `..` among its parts -/
def traverses (path : String) : Bool :=
  path.toList.head? = some '/' || (path.toList.splitOn '/').contains ['.', '.']

/-- `target.exists()` -/
def fileExists (view : Worktree) (path : String) : Bool :=
  (Dict.lookup view path).any fun f => !f.dangling

/-- The failure `validate_ownership` reports for one path, if any. -/
def validatePath (m : OwnershipManifest) (view : Worktree) (escapes foreignOwned : Bool)
    (path : String) : Option String :=
  if traverses path then some (path ++ ": traversal or absolute path")
  else if fileExists view path && escapes then some (path ++ ": escapes the repository root")
  else if foreignOwned then some (path ++ ": overlaps another transaction's ownership claim")
  else
    match Dict.lookup m.pathDigests path with
    | none => some (path ++ ": unowned — no content binding in the manifest")
    | some claimed =>
        if claimed = "" then
          if fileExists view path then some (path ++ ": declared absent but exists") else none
        else
          match Dict.lookup view path with
          | none => some (path ++ ": changed since claim (missing)")
          | some f =>
              if sha256 f.entry.bytes = claimed then none
              else some (path ++ ": changed since claim (content digest mismatch)")

/-- One call of `publish_reviewed_candidate` on a current review: the three sets of reads, and what
the hooks, the snapshots and Git answer. -/
structure PublishCall where
  manifest : OwnershipManifest
  parent : Tree
  hookViews : String → Worktree
  validateViews : String → Worktree
  addViews : String → Worktree
  escapes : String → Bool
  foreignOwned : List String
  hooksPass : Bool
  commits : Bool
  drift : Bool

def validateOwnership (call : PublishCall) : List String :=
  call.manifest.ownedPaths.filterMap fun path =>
    validatePath sha256 call.manifest (call.validateViews path) (call.escapes path)
      (call.foreignOwned.contains path) path

/-- The tree the blocking hooks ran on and the tree of the published commit. -/
structure Published where
  hookTree : Tree
  tree : Tree

def publishCandidate (call : PublishCall) : Except String Published := do
  let hookTree ← buildTree pathspec call.manifest call.hookViews call.parent
  if !call.hooksPass then throw "publication blocked: hook failed"
  match validateOwnership sha256 call with
  | [] => pure ()
  | failures =>
      throw ("ownership validation failed: " ++ "; ".intercalate (failures.take 5))
  let tree ← buildTree pathspec call.manifest call.addViews call.parent
  if !call.commits then throw "git commit-tree failed"
  if call.drift then throw "shared checkout state changed during candidate construction"
  pure ⟨hookTree, tree⟩

/-- The candidate is exactly what was claimed and judged. -/
structure Exact (call : PublishCall) (pub : Published) : Prop where
  owned : ∀ p ∈ call.manifest.ownedPaths, ∀ digest,
    Dict.lookup call.manifest.pathDigests p = some digest →
      if digest = "" then Dict.lookup pub.tree p = none
      else ∃ e, Dict.lookup pub.tree p = some e ∧ sha256 e.bytes = digest
  others : ∀ q ∉ call.manifest.ownedPaths, Dict.lookup pub.tree q = Dict.lookup call.parent q
  judged : ∀ q, Dict.lookup pub.hookTree q = Dict.lookup pub.tree q
  handoff : ∀ q, q ∈ handoffPaths call.parent pub.tree ↔
    Dict.lookup call.parent q ≠ Dict.lookup pub.tree q

/-- The last owned path whose `git` command reaches the path `q`. -/
def lastReach (m : OwnershipManifest) (q : String) : Option String :=
  m.ownedPaths.reverse.find? fun p => if m.declaredAbsent p then p = q else pathspec p q

/-- What that command found under `q`, or the parent's entry. -/
def lastFound (m : OwnershipManifest) (views : String → Worktree) (parent : Tree) (q : String) :
    Option Entry :=
  match lastReach pathspec m q with
  | none => Dict.lookup parent q
  | some p => if m.declaredAbsent p then none else (Dict.lookup (views p) q).map (·.entry)

/-- A name that `--name-only` prints as it is and `split()` keeps in one piece. -/
def plainName (path : String) : Bool :=
  path != "" && path.toList.all fun c => plainChar c && c != ' '

/-- What the reads of the worktree found: under each owned path the claimed content, last of all;
under every other path a pathspec matches, the parent's entry; the same for the hooks' tree; and
only plain names differ from the parent. -/
structure Found (call : PublishCall) : Prop where
  owned : ∀ p ∈ call.manifest.ownedPaths, ∀ digest,
    Dict.lookup call.manifest.pathDigests p = some digest →
      if digest = "" then lastFound pathspec call.manifest call.addViews call.parent p = none
      else ∃ e, lastFound pathspec call.manifest call.addViews call.parent p = some e ∧
        sha256 e.bytes = digest
  others : ∀ q ∉ call.manifest.ownedPaths,
    lastFound pathspec call.manifest call.addViews call.parent q = Dict.lookup call.parent q
  judged : ∀ q, lastFound pathspec call.manifest call.hookViews call.parent q =
    lastFound pathspec call.manifest call.addViews call.parent q
  names : ∀ q, Dict.lookup call.parent q ≠
      lastFound pathspec call.manifest call.addViews call.parent q → plainName q = true

end

/-! ## Lookups in the built tree -/

section

variable {sha256 : List UInt8 → String} {pathspec : String → String → Bool}

theorem lookup_filter_key {ν : Type} (d : Dict String ν) (keep : String → Bool) (q : String) :
    Dict.lookup (d.filter fun e => keep e.1) q = if keep q then Dict.lookup d q else none := by
  induction d with
  | nil => split <;> rfl
  | cons m d ih =>
      obtain ⟨k, v⟩ := m
      by_cases hk : keep k = true
      · rw [List.filter_cons_of_pos (by simpa using hk), Dict.lookup_cons, Dict.lookup_cons, ih]
        by_cases hkq : k = q
        · subst hkq
          simp [hk]
        · simp [hkq]
      · rw [List.filter_cons_of_neg (by simpa using hk), ih, Dict.lookup_cons]
        by_cases hkq : k = q
        · subst hkq
          simp [hk]
        · simp [hkq]

theorem lookup_map_value {ν μ : Type} (d : Dict String ν) (f : ν → μ) (q : String) :
    Dict.lookup (d.map fun e => (e.1, f e.2)) q = (Dict.lookup d q).map f := by
  induction d with
  | nil => rfl
  | cons m d ih =>
      obtain ⟨k, v⟩ := m
      rw [List.map_cons, Dict.lookup_cons, Dict.lookup_cons, ih]
      split <;> rfl

theorem lookup_stagePath {m : OwnershipManifest} {view : Worktree} {tree tree' : Tree}
    {path : String} (h : stagePath pathspec m view tree path = .ok tree') (q : String) :
    Dict.lookup tree' q =
      if (if m.declaredAbsent path then path = q else pathspec path q = true) then
        if m.declaredAbsent path then none else (Dict.lookup view q).map (·.entry)
      else Dict.lookup tree q := by
  unfold stagePath at h
  split at h
  · next habsent =>
      obtain rfl := Except.ok.inj h
      rw [lookup_filter_key tree (fun k => k ≠ path) q]
      by_cases hq : path = q
      · subst hq
        simp [habsent]
      · simp [habsent, hq, Ne.symm hq]
  · next hpresent =>
      split at h
      · obtain rfl := Except.ok.inj h
        have hview := lookup_map_value (view.filter fun f => pathspec path f.1) WorkFile.entry q
        rw [lookup_filter_key view (pathspec path) q] at hview
        rw [Dict.lookup_append, lookup_filter_key tree (fun k => !pathspec path k) q, hview]
        cases hq : pathspec path q with
        | true => simp [hpresent]
        | false => simp [hpresent]
      · cases h

theorem lookup_buildTree {m : OwnershipManifest} {views : String → Worktree} {parent tree : Tree}
    (h : buildTree pathspec m views parent = .ok tree) (q : String) :
    Dict.lookup tree q = lastFound pathspec m views parent q := by
  unfold buildTree at h
  unfold lastFound lastReach
  generalize m.ownedPaths = paths at h ⊢
  induction paths using List.reverseRecOn generalizing tree with
  | nil =>
      obtain rfl := Except.ok.inj h
      rfl
  | append_singleton paths p ih =>
      rw [List.foldlM_append] at h
      obtain ⟨t, ht, hp⟩ := Except.bind_eq_ok.mp h
      have hstage : stagePath pathspec m (views p) t p = .ok tree := by simpa using hp
      rw [lookup_stagePath hstage q, List.reverse_append, List.reverse_singleton,
        List.singleton_append, List.find?_cons]
      by_cases habsent : m.declaredAbsent p = true
      · by_cases hq : p = q
        · subst hq
          simp [habsent]
        · simpa [habsent, hq] using ih ht
      · cases hq : pathspec p q with
        | true => simp [habsent]
        | false => simpa [habsent, hq] using ih ht

end

/-! ## The words of the printed names -/

theorem pySplit_append_sep (before after : List Char) {sep : Char}
    (hsep : Regex.isSpace sep = true) :
    pySplit (before ++ sep :: after) = pySplit before ++ pySplit after := by
  unfold pySplit
  rw [List.splitOnP_append_cons before after hsep, List.filter_append]

theorem pySplit_eq_singleton {word : List Char} (hne : word ≠ [])
    (h : ∀ c ∈ word, Regex.isSpace c = false) : pySplit word = [word] := by
  unfold pySplit
  rw [List.splitOnP_eq_singleton h]
  simp [hne]

theorem isSpace_of_mem_splitOnP {text piece : List Char}
    (hpiece : piece ∈ text.splitOnP Regex.isSpace) : ∀ c ∈ piece, Regex.isSpace c = false := by
  induction text generalizing piece with
  | nil =>
      rw [List.splitOnP_nil, List.mem_singleton] at hpiece
      simp [hpiece]
  | cons a text ih =>
      rw [List.splitOnP_cons_eq_if_modifyHead] at hpiece
      obtain ⟨first, rest, hsplit⟩ :=
        List.exists_cons_of_ne_nil (List.splitOnP_ne_nil Regex.isSpace text)
      split at hpiece
      · rcases List.mem_cons.mp hpiece with rfl | hrest
        · simp
        · exact ih hrest
      · next ha =>
          rw [hsplit, List.modifyHead_cons] at hpiece
          rcases List.mem_cons.mp hpiece with rfl | hrest
          · intro c hc
            rcases List.mem_cons.mp hc with rfl | hc
            · simpa using ha
            · exact ih (hsplit ▸ List.mem_cons_self) c hc
          · exact ih (hsplit ▸ List.mem_cons_of_mem _ hrest)

theorem word_of_mem_pySplit {text word : List Char} (h : word ∈ pySplit text) :
    word ≠ [] ∧ ∀ c ∈ word, Regex.isSpace c = false := by
  obtain ⟨hpiece, hne⟩ := List.mem_filter.mp h
  exact ⟨of_decide_eq_true hne, isSpace_of_mem_splitOnP hpiece⟩

theorem pySplit_printNames_cons (name : String) (names : List String) :
    pySplit (printNames (name :: names)) =
      pySplit (quotePath name.toList) ++ pySplit (printNames names) := by
  have hcons : printNames (name :: names) =
      quotePath name.toList ++ '\n' :: printNames names := by
    simp [printNames, List.append_assoc]
  rw [hcons, pySplit_append_sep _ _ (by decide)]

theorem quotePath_mem_pySplit {names : List String} {name : String} (hmem : name ∈ names)
    (hne : quotePath name.toList ≠ [])
    (hblank : ∀ c ∈ quotePath name.toList, Regex.isSpace c = false) :
    quotePath name.toList ∈ pySplit (printNames names) := by
  induction names with
  | nil => cases hmem
  | cons a names ih =>
      rw [pySplit_printNames_cons, List.mem_append]
      rcases List.mem_cons.mp hmem with rfl | hmem
      · rw [pySplit_eq_singleton hne hblank]
        exact .inl List.mem_cons_self
      · exact .inr (ih hmem)

/-! ## What quoting does to a name -/

theorem octalDigit_not_space (n : Nat) : Regex.isSpace (octalDigit n) = false := by
  have hdigits : ∀ d < 8, Regex.isSpace (Char.ofNat (48 + d)) = false := by decide +kernel
  exact hdigits (n % 8) (Nat.mod_lt n (by omega))

theorem octal_not_space (b : UInt8) : ∀ c ∈ octal b, Regex.isSpace c = false := by
  intro c hc
  simp only [octal, List.mem_cons, List.not_mem_nil, or_false] at hc
  rcases hc with rfl | rfl | rfl | rfl
  · decide
  all_goals exact octalDigit_not_space _

theorem plainChar_not_space {c : Char} (hplain : plainChar c = true) (hc : c ≠ ' ') :
    Regex.isSpace c = false := by
  unfold plainChar at hplain
  simp only [Bool.and_eq_true, decide_eq_true_eq] at hplain
  have hnat : c.toNat ≠ 32 := fun h => hc (Char.toNat_inj.mp h)
  have hlow : 32 ≤ c.toNat := hplain.1.1.1
  have hhigh : c.toNat < 127 := hplain.1.1.2
  have hcontains : ['\x85', '\xa0', '\u1680', '\u2028', '\u2029', '\u202f', '\u205f',
      '\u3000'].contains c = false := by
    rw [List.contains_eq_mem, decide_eq_false_iff_not]
    intro hmem
    simp only [List.mem_cons, List.not_mem_nil, or_false] at hmem
    rcases hmem with rfl | rfl | rfl | rfl | rfl | rfl | rfl | rfl
    all_goals exact absurd hhigh (by decide)
  unfold Regex.isSpace Regex.range
  rw [hcontains]
  have h1 : '\x0d'.toNat = 13 := rfl
  have h2 : '\x1c'.toNat = 28 := rfl
  have h3 : ' '.toNat = 32 := rfl
  have h4 : '\u2000'.toNat = 8192 := rfl
  simp only [h1, h2, h3, h4, Bool.or_false, Bool.or_eq_false_iff, decide_eq_false_iff_not]
  omega

theorem quoteChar_not_space {c : Char} (hc : c ≠ ' ') :
    ∀ d ∈ quoteChar c, Regex.isSpace d = false := by
  intro d hd
  unfold quoteChar at hd
  split at hd
  · next hplain =>
      rw [List.mem_singleton] at hd
      exact hd ▸ plainChar_not_space hplain hc
  · split at hd
    all_goals first
      | (obtain ⟨b, -, hb⟩ := List.mem_flatMap.mp hd
         exact octal_not_space b d hb)
      | (simp only [List.mem_cons, List.not_mem_nil, or_false] at hd
         rcases hd with rfl | rfl <;> decide)

theorem quoteChar_ne_nil (c : Char) : quoteChar c ≠ [] := by
  unfold quoteChar
  split
  · exact List.cons_ne_nil _ _
  · split
    all_goals first
      | exact List.cons_ne_nil _ _
      | skip
    obtain ⟨b, bytes, hbytes⟩ : ∃ b bytes, String.utf8EncodeChar c = b :: bytes :=
      List.exists_cons_of_ne_nil (by
        intro hnil
        have hlen := String.length_utf8EncodeChar c
        rw [hnil, List.length_nil] at hlen
        exact absurd hlen (Nat.ne_of_lt (Char.utf8Size_pos c)))
    rw [hbytes, List.flatMap_cons, octal]
    exact List.cons_ne_nil _ _

theorem length_le_flatMap_quoteChar (path : List Char) :
    path.length ≤ (path.flatMap quoteChar).length := by
  induction path with
  | nil => exact Nat.le_refl _
  | cons c path ih =>
      have hpos : 0 < (quoteChar c).length := List.length_pos_iff.mpr (quoteChar_ne_nil c)
      rw [List.flatMap_cons, List.length_append, List.length_cons]
      omega

theorem quotePath_plain {path : List Char} (h : path.all plainChar = true) :
    quotePath path = path := if_pos h

theorem quotePath_ne_nil {path : List Char} (hne : path ≠ []) : quotePath path ≠ [] := by
  unfold quotePath
  split
  · exact hne
  · exact List.cons_ne_nil _ _

theorem quotePath_not_space {path : List Char} (h : ∀ c ∈ path, c ≠ ' ') :
    ∀ d ∈ quotePath path, Regex.isSpace d = false := by
  intro d hd
  unfold quotePath at hd
  split at hd
  · next hplain => exact plainChar_not_space (List.all_eq_true.mp hplain d hd) (h d hd)
  · simp only [List.mem_cons, List.mem_append, List.not_mem_nil, or_false] at hd
    rcases hd with rfl | hd | rfl
    · decide
    · obtain ⟨c, hc, hd⟩ := List.mem_flatMap.mp hd
      exact quoteChar_not_space (h c hc) d hd
    · decide

theorem quotePath_unusual {path : List Char} (h : path.all plainChar = false) :
    (quotePath path).all plainChar = false ∧ path.length < (quotePath path).length := by
  unfold quotePath
  rw [if_neg (by simp [h])]
  refine ⟨?_, ?_⟩
  · rw [List.all_cons, show plainChar '"' = false from by decide, Bool.false_and]
  · have hle := length_le_flatMap_quoteChar path
    rw [List.length_cons, List.length_append, List.length_singleton]
    omega

/-! ## The paths of the handoff -/

theorem mem_diffTree {old new : Tree} {q : String} :
    q ∈ diffTree old new ↔ Dict.lookup old q ≠ Dict.lookup new q := by
  unfold diffTree
  rw [List.mem_filter, List.mem_dedup, decide_eq_true_eq, and_iff_right_iff_imp]
  intro hne
  rw [List.map_append, List.mem_append]
  by_contra hnot
  obtain ⟨hold, hnew⟩ := not_or.mp hnot
  exact hne ((Dict.lookup_eq_none_iff.mpr hold).trans (Dict.lookup_eq_none_iff.mpr hnew).symm)

theorem plainName_iff {q : String} :
    plainName q = true ↔
      q.toList ≠ [] ∧ (∀ c ∈ q.toList, c ≠ ' ') ∧ q.toList.all plainChar = true := by
  have hempty : q = "" ↔ q.toList = [] := by
    rw [← String.toList_inj]
    rfl
  unfold plainName
  simp only [Bool.and_eq_true, bne_iff_ne, ne_eq, hempty, List.all_eq_true]
  exact ⟨fun ⟨hne, h⟩ => ⟨hne, fun c hc => (h c hc).2, fun c hc => (h c hc).1⟩,
    fun ⟨hne, hblank, hplain⟩ => ⟨hne, fun c hc => ⟨hplain c hc, hblank c hc⟩⟩⟩

theorem pySplit_printNames_plain {names : List String} (h : ∀ q ∈ names, plainName q = true) :
    pySplit (printNames names) = names.map String.toList := by
  induction names with
  | nil => decide
  | cons a names ih =>
      obtain ⟨hne, hblank, hplain⟩ := plainName_iff.mp (h a List.mem_cons_self)
      have hword : pySplit a.toList = [a.toList] :=
        pySplit_eq_singleton hne fun c hc =>
          plainChar_not_space (List.all_eq_true.mp hplain c hc) (hblank c hc)
      rw [pySplit_printNames_cons, quotePath_plain hplain, hword,
        ih fun q hq => h q (List.mem_cons_of_mem _ hq), List.map_cons, List.singleton_append]

/-- A quoted name that is handed off differs itself, and then its own quoted form is handed off:
the names would grow for ever. -/
theorem all_plain_of_handoff {old new : Tree}
    (h : ∀ q, q ∈ handoffPaths old new ↔ Dict.lookup old q ≠ Dict.lookup new q) {q : String}
    (hq : Dict.lookup old q ≠ Dict.lookup new q) : plainName q = true := by
  -- a differing name is a word of the output, so it has no blank
  have hword : ∀ q, q ∈ diffTree old new →
      q.toList ≠ [] ∧ ∀ c ∈ q.toList, Regex.isSpace c = false := by
    intro q hq
    obtain ⟨word, hmem, rfl⟩ := List.mem_map.mp ((h q).mpr (mem_diffTree.mp hq))
    rw [String.toList_ofList]
    exact word_of_mem_pySplit hmem
  have hblank : ∀ q, q ∈ diffTree old new → ∀ c ∈ q.toList, c ≠ ' ' := by
    rintro q hq c hc rfl
    exact absurd ((hword q hq).2 ' ' hc) (by decide)
  -- an unusual one has a longer unusual one after it
  have hgrow : ∀ q, q ∈ diffTree old new → q.toList.all plainChar = false →
      ∃ r, r ∈ diffTree old new ∧ r.toList.all plainChar = false ∧
        q.toList.length < r.toList.length := by
    intro q hq hunusual
    obtain ⟨hunusual', hlonger⟩ := quotePath_unusual hunusual
    have hprinted := quotePath_mem_pySplit hq (quotePath_ne_nil (hword q hq).1)
      (quotePath_not_space (hblank q hq))
    refine ⟨String.ofList (quotePath q.toList), ?_, ?_, ?_⟩
    · exact mem_diffTree.mpr ((h _).mp (List.mem_map.mpr ⟨_, hprinted, rfl⟩))
    · rw [String.toList_ofList]
      exact hunusual'
    · rw [String.toList_ofList]
      exact hlonger
  have hplain : ∀ q, q ∈ diffTree old new → ¬ q.toList.all plainChar = false := by
    intro q hq hunusual
    have hbound : ∀ r ∈ diffTree old new,
        r.toList.length ≤ ((diffTree old new).map fun p => p.toList.length).sum :=
      fun r hr => List.single_le_sum (fun n _ => Nat.zero_le n) _
        (List.mem_map.mpr ⟨r, hr, rfl⟩)
    generalize ((diffTree old new).map fun p => p.toList.length).sum = longest at hbound
    induction hgap : longest - q.toList.length using Nat.strongRecOn generalizing q with
    | ind gap ih =>
        obtain ⟨r, hr, hunusual', hlt⟩ := hgrow q hq hunusual
        have hle := hbound r hr
        exact ih (longest - r.toList.length) (by omega) r hr hunusual' rfl
  have hdiff := mem_diffTree.mpr hq
  exact plainName_iff.mpr ⟨(hword q hdiff).1, hblank q hdiff, by simpa using hplain q hdiff⟩

theorem handoffPaths_iff {old new : Tree} :
    (∀ q, q ∈ handoffPaths old new ↔ Dict.lookup old q ≠ Dict.lookup new q) ↔
      ∀ q, Dict.lookup old q ≠ Dict.lookup new q → plainName q = true := by
  refine ⟨fun h q hq => all_plain_of_handoff h hq, fun h q => ?_⟩
  have hnames : ∀ p ∈ diffTree old new, plainName p = true := fun p hp =>
    h p (mem_diffTree.mp hp)
  unfold handoffPaths
  rw [pySplit_printNames_plain hnames, List.map_map, ← mem_diffTree]
  simp

/-! ## The candidate -/

section

variable {sha256 : List UInt8 → String} {pathspec : String → String → Bool}

theorem publishCandidate_ok {call : PublishCall} {pub : Published}
    (h : publishCandidate sha256 pathspec call = .ok pub) :
    buildTree pathspec call.manifest call.hookViews call.parent = .ok pub.hookTree ∧
      buildTree pathspec call.manifest call.addViews call.parent = .ok pub.tree := by
  unfold publishCandidate at h
  obtain ⟨hookTree, hhook, h⟩ := Except.bind_eq_ok.mp h
  dsimp only at h
  split at h
  · cases h
  · split at h
    · obtain ⟨tree, htree, h⟩ := Except.bind_eq_ok.mp h
      split at h
      · cases h
      · split at h
        · cases h
        · obtain rfl := Except.ok.inj h
          exact ⟨hhook, htree⟩
    · cases h

theorem candidate_exact (call : PublishCall) (pub : Published)
    (h : publishCandidate sha256 pathspec call = .ok pub) :
    Exact sha256 call pub ↔ Found sha256 pathspec call := by
  obtain ⟨hhook, htree⟩ := publishCandidate_ok h
  have hlookup := lookup_buildTree htree
  have hlookupHook := lookup_buildTree hhook
  constructor
  · rintro ⟨howned, hothers, hjudged, hhandoff⟩
    refine ⟨?_, ?_, ?_, ?_⟩
    · intro p hp digest hdigest
      rw [← hlookup p]
      exact howned p hp digest hdigest
    · intro q hq
      rw [← hlookup q]
      exact hothers q hq
    · intro q
      rw [← hlookup q, ← hlookupHook q]
      exact hjudged q
    · intro q hq
      rw [← hlookup q] at hq
      exact handoffPaths_iff.mp hhandoff q hq
  · rintro ⟨howned, hothers, hjudged, hnames⟩
    refine ⟨?_, ?_, ?_, ?_⟩
    · intro p hp digest hdigest
      rw [hlookup p]
      exact howned p hp digest hdigest
    · intro q hq
      rw [hlookup q]
      exact hothers q hq
    · intro q
      rw [hlookup q, hlookupHook q]
      exact hjudged q
    · refine handoffPaths_iff.mpr fun q hq => hnames q ?_
      rw [← hlookup q]
      exact hq

end

/-- The digest of the empty file. -/
def emptyDigest : String :=
  "sha256:e3b0c44298fc1c149afbf4c8996fb92427ae41e4649b934ca495991b7852b855"

def emptySha256 : List UInt8 → String := fun _ => emptyDigest

/-- An empty file is added under `path`, and nobody else writes. -/
def addEmpty (path : String) : PublishCall where
  manifest := ⟨[path], [(path, emptyDigest)]⟩
  parent := [("README", ⟨.regular, []⟩)]
  hookViews := fun _ => [(path, ⟨⟨.regular, []⟩, false⟩)]
  validateViews := fun _ => [(path, ⟨⟨.regular, []⟩, false⟩)]
  addViews := fun _ => [(path, ⟨⟨.regular, []⟩, false⟩)]
  escapes := fun _ => false
  foreignOwned := []
  hooksPass := true
  commits := true
  drift := false

def addedEmpty (path : String) : Tree :=
  [("README", ⟨.regular, []⟩), (path, ⟨.regular, []⟩)]

theorem candidate_exact_notes :
    publishCandidate emptySha256 (· == ·) (addEmpty "notes") =
        .ok ⟨addedEmpty "notes", addedEmpty "notes"⟩ ∧
      (Exact emptySha256 (addEmpty "notes") ⟨addedEmpty "notes", addedEmpty "notes"⟩ ↔
        Found emptySha256 (· == ·) (addEmpty "notes")) :=
  have h : publishCandidate emptySha256 (· == ·) (addEmpty "notes") =
      .ok ⟨addedEmpty "notes", addedEmpty "notes"⟩ := by rfl
  ⟨h, candidate_exact (addEmpty "notes") ⟨addedEmpty "notes", addedEmpty "notes"⟩ h⟩

/-- The handoff of a file named `a b` names the files `a` and `b`. -/
theorem blank_name_handed_off_in_pieces :
    publishCandidate emptySha256 (· == ·) (addEmpty "a b") =
        .ok ⟨addedEmpty "a b", addedEmpty "a b"⟩ ∧
      handoffPaths (addEmpty "a b").parent (addedEmpty "a b") = ["a", "b"] ∧
      ¬ Exact emptySha256 (addEmpty "a b") ⟨addedEmpty "a b", addedEmpty "a b"⟩ := by
  have hpaths : handoffPaths (addEmpty "a b").parent (addedEmpty "a b") = ["a", "b"] := by
    decide +kernel
  refine ⟨by rfl, hpaths, fun hexact => ?_⟩
  have hdiffers : Dict.lookup (addEmpty "a b").parent "a b" ≠
      Dict.lookup (addedEmpty "a b") "a b" := by decide
  have hmem := (hexact.handoff "a b").mpr hdiffers
  rw [hpaths] at hmem
  exact absurd hmem (by decide)

end TrwMcp.GitTxn
