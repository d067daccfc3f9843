import TrwMcp.Formation.Manifest
import TrwMcp.Intent.Contract
import TrwMcp.Lib.Fold

/-!
# Who owns a path

`owner_of` goes through the declared globs once, member by member, keeps the longest that covers the
path, and raises at the first one of another member that is as long as the longest so far. Whether a
longer one would have come is then not asked, so the order of the members decides.
-/

namespace TrwMcp.Formation

open Lib Lib.Text

/-- `Ownership` -/
structure Ownership where
  path : String
  memberId : Option String
  glob : Option String
  isTestPath : Bool := false
  deriving DecidableEq

/-- Two members claim the path equally. -/
structure OwnershipTie where
  path : String
  memberId : String
  glob : String
  rivalId : String
  rivalGlob : String
  deriving DecidableEq

/-- The refusal's text; `repr` is `{value!r}`. -/
def OwnershipTie.message (repr : String → String) (tie : OwnershipTie) : String :=
  "path " ++ repr tie.path ++ " is claimed equally by " ++ repr tie.memberId ++ " (glob " ++
    repr tie.glob ++ ") and " ++ repr tie.rivalId ++ " (glob " ++ repr tie.rivalGlob ++
    "); resolve the overlap by manifest revision"

/-! ## Paths -/

/-- A `PurePosixPath`: its root and its parts. -/
structure PosixPath where
  root : List Char
  parts : List (List Char)
  deriving DecidableEq

def posixPath (text : List Char) : PosixPath where
  root :=
    -- two leading slashes are a root of their own
    if ['/', '/'].isPrefixOf text && !(['/', '/', '/'].isPrefixOf text) then ['/', '/']
    else if text.head? == some '/' then ['/']
    else []
  parts := (text.splitOn '/').filter fun part => part ≠ [] ∧ part ≠ ['.']

/-- `relative_to_root` -/
def relativeToRoot (raw projectRoot : String) : Option String :=
  let text := stripChars raw.toList
  if text = [] then none
  else
    let candidate := posixPath (text.map fun c => if c = '\\' then '/' else c)
    let root := posixPath projectRoot.toList
    let relative :=
      if candidate.root = [] then some candidate.parts
      else if candidate.root = root.root ∧ root.parts.isPrefixOf candidate.parts then
        some (candidate.parts.drop root.parts.length)
      else none
    match relative with
    | none => none
    | some parts =>
        if ['.', '.'] ∈ parts then none
        else if parts = [] then none
        else some (String.ofList (['/'].intercalate parts))

/-! ## Declarations -/

/-- `declaration_covers` -/
def declarationCovers (glob relPath : String) : Bool :=
  Intent.fnmatchcase relPath glob ||
    (rstripChars glob.toList ++ ['/']).isPrefixOf relPath.toList

/-- A declared glob, and whether it stands in `test_owned_paths`. -/
structure Declaration where
  memberId : String
  glob : String
  isTest : Bool
  deriving DecidableEq

def FormationMember.owned (member : FormationMember) : List Declaration :=
  member.ownedPaths.map fun glob => ⟨member.memberId, glob, false⟩

def FormationMember.testOwned (member : FormationMember) : List Declaration :=
  member.testOwnedPaths.map fun glob => ⟨member.memberId, glob, true⟩

/-- The globs of a member as the loop comes to them. -/
def FormationMember.declarations (member : FormationMember) : List Declaration :=
  member.owned ++ member.testOwned

/-- `best` and `best_len` -/
structure Scan where
  best : Option Declaration := none
  bestLen : Int := -1

/-- The body of the loop. -/
def offer (relPath : String) (scan : Scan) (d : Declaration) : Except OwnershipTie Scan :=
  if !declarationCovers d.glob relPath then .ok scan
  else if scan.bestLen < d.glob.length then .ok ⟨some d, d.glob.length⟩
  else
    match scan.best with
    | some best =>
        if d.glob.length = scan.bestLen ∧ best.memberId ≠ d.memberId then
          .error ⟨relPath, best.memberId, best.glob, d.memberId, d.glob⟩
        else .ok scan
    | none => .ok scan

/-- The loop over the members. -/
def scanMembers (relPath : String) (members : List FormationMember) : Except OwnershipTie Scan :=
  members.foldlM (fun scan member => member.declarations.foldlM (offer relPath) scan) {}

/-- `owner_of` -/
def ownerOf (manifest : FormationManifest) (rawPath projectRoot : String) :
    Except OwnershipTie Ownership :=
  match relativeToRoot rawPath projectRoot with
  | none => .ok ⟨rawPath, none, none, false⟩
  | some relPath => do
      let scan ← scanMembers relPath manifest.members
      match scan.best with
      | some best => .ok ⟨relPath, some best.memberId, some best.glob, best.isTest⟩
      | none => .ok ⟨relPath, none, none, false⟩

/-! ## What the answer is to be -/

/-- The declarations that cover the path. -/
def Covering (members : List FormationMember) (relPath : String) (d : Declaration) : Prop :=
  (∃ member ∈ members, d ∈ member.declarations) ∧ declarationCovers d.glob relPath = true

/-- A longest one of them. -/
def Longest (members : List FormationMember) (relPath : String) (d : Declaration) : Prop :=
  Covering members relPath d ∧ ∀ e, Covering members relPath e → e.glob.length ≤ d.glob.length

/-- Two different members declare a longest one. -/
def Tied (members : List FormationMember) (relPath : String) : Prop :=
  ∃ d e, Longest members relPath d ∧ Longest members relPath e ∧ d.memberId ≠ e.memberId

/-- The owner is the member with a longest covering glob, and nobody where none covers; a tie of two
members raises. -/
def Resolved (members : List FormationMember) (relPath : String) :
    Except OwnershipTie Ownership → Prop
  | .error _ => Tied members relPath
  | .ok owner => ¬ Tied members relPath ∧
      match owner.memberId with
      | none => ∀ d, ¬ Covering members relPath d
      | some memberId =>
          ∃ d, Longest members relPath d ∧ d.memberId = memberId ∧ owner.glob = some d.glob

/-- A member with its globs in another order. -/
structure Shuffled (member other : FormationMember) : Prop where
  memberId : other.memberId = member.memberId
  ownedPaths : other.ownedPaths.Perm member.ownedPaths
  testOwnedPaths : other.testOwnedPaths.Perm member.testOwnedPaths

/-- The members in another order, and the globs of each. -/
def Reordered (members others : List FormationMember) : Prop :=
  ∃ mid, members.Perm mid ∧ List.Forall₂ Shuffled mid others

/-- Who owns the path, or that this raises. -/
def outcome (answer : Except OwnershipTie Ownership) : Option (Option String) :=
  answer.toOption.map (·.memberId)

/-- In every order of the members the answer is right, and the same. -/
def OrderFree (manifest : FormationManifest) (rawPath projectRoot : String) : Prop :=
  ∀ members, Reordered manifest.members members →
    (match relativeToRoot rawPath projectRoot with
      | none => outcome (ownerOf { manifest with members } rawPath projectRoot) = some none
      | some relPath =>
          Resolved members relPath (ownerOf { manifest with members } rawPath projectRoot)) ∧
    outcome (ownerOf { manifest with members } rawPath projectRoot) =
      outcome (ownerOf manifest rawPath projectRoot)

/-- Two members come to declare covering globs of one length before either declares a longer one:
the length is the longest of the first, and the second declares it no later than anything
longer. -/
def EarlyTie (members : List FormationMember) (relPath : String) : Prop :=
  ∃ member ∈ members, ∃ rival ∈ members, member.memberId ≠ rival.memberId ∧
    ∃ d ∈ member.declarations, ∃ g, declarationCovers d.glob relPath = true ∧
      declarationCovers g.glob relPath = true ∧ d.glob.length = g.glob.length ∧
      (∀ e ∈ member.declarations, declarationCovers e.glob relPath = true →
        e.glob.length ≤ d.glob.length) ∧
      (g ∈ rival.owned ∨ g ∈ rival.testOwned ∧
        ∀ e ∈ rival.owned, declarationCovers e.glob relPath = true →
          e.glob.length ≤ g.glob.length)

/-! ## One scan -/

section

variable {relPath : String}

/-- What the loop knows of the declarations it has passed. -/
structure Best (relPath : String) (passed : List Declaration) (scan : Scan) : Prop where
  unowned : scan.best = none → scan.bestLen = -1
  best : ∀ b, scan.best = some b →
    b ∈ passed ∧ declarationCovers b.glob relPath = true ∧ scan.bestLen = b.glob.length
  longest : ∀ d ∈ passed, declarationCovers d.glob relPath = true →
    (d.glob.length : Int) ≤ scan.bestLen
  single : ∀ d ∈ passed, declarationCovers d.glob relPath = true →
    (d.glob.length : Int) = scan.bestLen → ∀ b, scan.best = some b → d.memberId = b.memberId

theorem Best.start : Best relPath [] {} :=
  ⟨fun _ => rfl, nofun, nofun, nofun⟩

theorem Best.offer {passed : List Declaration} {scan scan' : Scan} {d : Declaration}
    (h : Best relPath passed scan) (hoffer : offer relPath scan d = .ok scan') :
    Best relPath (passed ++ [d]) scan' := by
  unfold Formation.offer at hoffer
  split at hoffer
  · next hcovers =>
      obtain rfl := Except.ok.inj hoffer
      have hnot : declarationCovers d.glob relPath = false := by simpa using hcovers
      have hpassed : ∀ e ∈ passed ++ [d], declarationCovers e.glob relPath = true →
          e ∈ passed := by
        intro e he hcover
        rcases List.mem_append.mp he with hmem | hmem
        · exact hmem
        · obtain rfl := List.mem_singleton.mp hmem
          rw [hnot] at hcover
          cases hcover
      refine ⟨h.unowned, fun b hb => ?_,
        fun e he hcover => h.longest e (hpassed e he hcover) hcover,
        fun e he hcover => h.single e (hpassed e he hcover) hcover⟩
      obtain ⟨hmem, hrest⟩ := h.best b hb
      exact ⟨List.mem_append_left _ hmem, hrest⟩
  · next hcovers =>
      have hcover : declarationCovers d.glob relPath = true := by simpa using hcovers
      split at hoffer
      · next hlonger =>
          obtain rfl := Except.ok.inj hoffer
          refine ⟨nofun, ?_, fun e he hcover => ?_, fun e he hcover heq => ?_⟩
          · rintro b ⟨⟩
            exact ⟨by simp, hcover, rfl⟩
          · rcases List.mem_append.mp he with hmem | hmem
            · exact (h.longest e hmem hcover).trans hlonger.le
            · obtain rfl := List.mem_singleton.mp hmem
              exact le_refl _
          · rintro b ⟨⟩
            rcases List.mem_append.mp he with hmem | hmem
            · exact absurd heq ((h.longest e hmem hcover).trans_lt hlonger).ne
            · obtain rfl := List.mem_singleton.mp hmem
              rfl
      · next hlonger =>
          have hle : (d.glob.length : Int) ≤ scan.bestLen := not_lt.mp hlonger
          have hkeep : (∀ b, scan.best = some b → (d.glob.length : Int) = scan.bestLen →
              d.memberId = b.memberId) → Best relPath (passed ++ [d]) scan := by
            intro hsame
            refine ⟨h.unowned, fun b hb => ?_, fun e he hcover => ?_,
              fun e he hcover heq b hb => ?_⟩
            · obtain ⟨hmem, hrest⟩ := h.best b hb
              exact ⟨List.mem_append_left _ hmem, hrest⟩
            · rcases List.mem_append.mp he with hmem | hmem
              · exact h.longest e hmem hcover
              · obtain rfl := List.mem_singleton.mp hmem
                exact hle
            · rcases List.mem_append.mp he with hmem | hmem
              · exact h.single e hmem hcover heq b hb
              · obtain rfl := List.mem_singleton.mp hmem
                exact hsame b hb heq
          split at hoffer
          · next best hbest =>
              split at hoffer
              · cases hoffer
              · next hnot =>
                  obtain rfl := Except.ok.inj hoffer
                  refine hkeep fun b hb heq => ?_
                  obtain rfl := Option.some.inj (hbest.symm.trans hb)
                  by_contra hne
                  exact hnot ⟨heq, fun h => hne h.symm⟩
          · next hnone =>
              obtain rfl := Except.ok.inj hoffer
              refine hkeep fun b hb _ => ?_
              rw [hnone] at hb
              cases hb

theorem offer_error {scan : Scan} {d : Declaration} {tie : OwnershipTie}
    (h : offer relPath scan d = .error tie) :
    ∃ b, scan.best = some b ∧ declarationCovers d.glob relPath = true ∧
      (d.glob.length : Int) = scan.bestLen ∧ b.memberId ≠ d.memberId := by
  unfold offer at h
  split at h
  · cases h
  · next hcovers =>
      split at h
      · cases h
      · split at h
        · next best hbest =>
            split at h
            · next htie => exact ⟨best, hbest, by simpa using hcovers, htie⟩
            · cases h
        · cases h

theorem offer_tie {scan : Scan} {d b : Declaration} (hbest : scan.best = some b)
    (hcover : declarationCovers d.glob relPath = true)
    (hlen : (d.glob.length : Int) = scan.bestLen) (hne : b.memberId ≠ d.memberId) :
    offer relPath scan d = .error ⟨relPath, b.memberId, b.glob, d.memberId, d.glob⟩ := by
  unfold offer
  rw [hcover, hbest]
  simp [hlen, hne]

theorem offer_shorter {scan scan' : Scan} {d : Declaration}
    (h : offer relPath scan d = .ok scan')
    (hle : declarationCovers d.glob relPath = true → (d.glob.length : Int) ≤ scan.bestLen) :
    scan' = scan := by
  unfold offer at h
  split at h
  · exact (Except.ok.inj h).symm
  · next hcovers =>
      rw [if_neg (not_lt.mpr (hle (by simpa using hcovers)))] at h
      split at h
      · split at h
        · cases h
        · exact (Except.ok.inj h).symm
      · exact (Except.ok.inj h).symm

theorem Best.declarations {passed ds : List Declaration} {scan scan' : Scan}
    (h : Best relPath passed scan) (hfold : ds.foldlM (Formation.offer relPath) scan = .ok scan') :
    Best relPath (passed ++ ds) scan' :=
  Except.foldlM_history (I := Best relPath) (fun _ _ _ _ hbest hoffer => hbest.offer hoffer) h hfold

theorem best_scanMembers {members : List FormationMember} {scan : Scan}
    (h : scanMembers relPath members = .ok scan) :
    Best relPath (members.flatMap (·.declarations)) scan := by
  have hall := Except.foldlM_history
    (I := fun passed scan => Best relPath (passed.flatMap FormationMember.declarations) scan)
    (fun passed scan member scan' hbest hfold => ?_)
    (show Best relPath ([].flatMap FormationMember.declarations) {} from Best.start) h
  · exact hall
  · rw [List.flatMap_append, List.flatMap_singleton]
    exact hbest.declarations hfold

theorem covering_iff {members : List FormationMember} {d : Declaration} :
    Covering members relPath d ↔
      d ∈ members.flatMap (·.declarations) ∧ declarationCovers d.glob relPath = true := by
  rw [Covering, List.mem_flatMap]

theorem memberId_of_mem {member : FormationMember} {d : Declaration}
    (h : d ∈ member.declarations) : d.memberId = member.memberId := by
  rcases List.mem_append.mp h with hmem | hmem <;>
    · obtain ⟨glob, -, rfl⟩ := List.mem_map.mp hmem
      rfl

theorem earlyTie_of_error {members : List FormationMember} {tie : OwnershipTie}
    (h : scanMembers relPath members = .error tie) : EarlyTie members relPath := by
  obtain ⟨pre, rival, post, scan, rfl, hpre, hrival⟩ := Except.foldlM_error h
  obtain ⟨before, g, after, scan', hds, hbefore, hg⟩ := Except.foldlM_error hrival
  have hbest : Best relPath (pre.flatMap (·.declarations) ++ before) scan' :=
    (best_scanMembers hpre).declarations hbefore
  obtain ⟨d, hd, hcover, hlen, hne⟩ := offer_error hg
  obtain ⟨hmem, hdcover, hdlen⟩ := hbest.best d hd
  have hgmem : g ∈ rival.declarations := by
    rw [hds]
    exact List.mem_append_right _ (List.mem_cons_self ..)
  have hbeforeId : ∀ e ∈ before, e.memberId = g.memberId := by
    intro e he
    rw [memberId_of_mem hgmem]
    refine memberId_of_mem ?_
    rw [hds]
    exact List.mem_append_left _ he
  have hlater : d ∈ pre.flatMap (·.declarations) :=
    (List.mem_append.mp hmem).resolve_right fun hmem => hne (hbeforeId d hmem)
  obtain ⟨member, hmember, hdmem⟩ := List.mem_flatMap.mp hlater
  have hdg : d.glob.length = g.glob.length := by
    have := hdlen.symm.trans hlen.symm
    exact_mod_cast this
  refine ⟨member, List.mem_append_left _ hmember, rival,
    List.mem_append_right _ (List.mem_cons_self ..), ?_, d, hdmem, g, hdcover, hcover, hdg,
    fun e he hecover => ?_, ?_⟩
  · rw [← memberId_of_mem hdmem, ← memberId_of_mem hgmem]
    exact hne
  · have hle := hbest.longest e
      (List.mem_append_left _ (List.mem_flatMap.mpr ⟨member, hmember, he⟩)) hecover
    rw [hdlen] at hle
    exact_mod_cast hle
  · rcases List.mem_append.mp hgmem with howned | htest
    · exact .inl howned
    · -- where `g` stands in the test globs, the loop has passed the others
      by_cases hfirst : g ∈ rival.owned
      · exact .inl hfirst
      · refine .inr ⟨htest, fun e he hecover => ?_⟩
        have hpassed : e ∈ before := by
          have hprefix : before ++ g :: after = rival.owned ++ rival.testOwned := hds.symm
          rcases List.append_eq_append_iff.mp hprefix with ⟨mid, howned, hafter⟩ | ⟨mid, hb, -⟩
          · cases mid with
            | nil =>
                rw [howned, List.append_nil] at he
                exact he
            | cons x mid =>
                obtain ⟨rfl, -⟩ := List.cons.inj hafter
                exact absurd (howned ▸ List.mem_append_right _ (List.mem_cons_self ..)) hfirst
          · rw [hb]
            exact List.mem_append_left _ he
        have hle := hbest.longest e (List.mem_append_right _ hpassed) hecover
        rw [← hlen] at hle
        exact_mod_cast hle

/-! ## The answer -/

theorem ownerOf_none {manifest : FormationManifest} {rawPath projectRoot : String}
    (h : relativeToRoot rawPath projectRoot = none) :
    outcome (ownerOf manifest rawPath projectRoot) = some none := by
  unfold ownerOf
  rw [h]
  rfl

theorem resolved_ownerOf {manifest : FormationManifest} {rawPath projectRoot : String}
    (hrel : relativeToRoot rawPath projectRoot = some relPath)
    (htie : EarlyTie manifest.members relPath → Tied manifest.members relPath) :
    Resolved manifest.members relPath (ownerOf manifest rawPath projectRoot) := by
  unfold ownerOf
  rw [hrel]
  dsimp only
  cases hscan : scanMembers relPath manifest.members with
  | error tie => exact htie (earlyTie_of_error hscan)
  | ok scan =>
      have hbest := best_scanMembers hscan
      have hlongest : ∀ b, scan.best = some b → Longest manifest.members relPath b := by
        intro b hb
        obtain ⟨hmem, hcover, hlen⟩ := hbest.best b hb
        refine ⟨covering_iff.mpr ⟨hmem, hcover⟩, fun e he => ?_⟩
        obtain ⟨hemem, hecover⟩ := covering_iff.mp he
        have hle := hbest.longest e hemem hecover
        rw [hlen] at hle
        exact_mod_cast hle
      have hsame : ∀ b, scan.best = some b → ∀ d, Longest manifest.members relPath d →
          d.memberId = b.memberId := by
        intro b hb d hd
        obtain ⟨hmem, hcover⟩ := covering_iff.mp hd.1
        have hlen : d.glob.length = b.glob.length :=
          le_antisymm ((hlongest b hb).2 d hd.1) (hd.2 b (hlongest b hb).1)
        refine hbest.single d hmem hcover ?_ b hb
        rw [(hbest.best b hb).2.2, hlen]
      cases hb : scan.best with
      | none =>
          have hnone : ∀ d, ¬ Covering manifest.members relPath d := by
            intro d hd
            obtain ⟨hmem, hcover⟩ := covering_iff.mp hd
            have hle := hbest.longest d hmem hcover
            rw [hbest.unowned hb] at hle
            omega
          simp only [bind, Except.bind, hb]
          exact ⟨fun ⟨d, _, hd, _⟩ => hnone d hd.1, hnone⟩
      | some b =>
          simp only [bind, Except.bind, hb]
          refine ⟨fun ⟨d, e, hd, he, hne⟩ => hne ?_, b, hlongest b hb, rfl, rfl⟩
          exact (hsame b hb d hd).trans (hsame b hb e he).symm

theorem outcome_unique {members : List FormationMember} {a b : Except OwnershipTie Ownership}
    (ha : Resolved members relPath a) (hb : Resolved members relPath b) :
    outcome a = outcome b := by
  cases a with
  | error tie =>
      cases b with
      | error tie' => rfl
      | ok owner => exact absurd ha hb.1
  | ok owner =>
      cases b with
      | error tie => exact absurd hb ha.1
      | ok other =>
          obtain ⟨huntied, ha⟩ := ha
          obtain ⟨-, hb⟩ := hb
          change some owner.memberId = some other.memberId
          cases hown : owner.memberId with
          | none =>
              cases hother : other.memberId with
              | none => rfl
              | some memberId =>
                  rw [hown] at ha
                  rw [hother] at hb
                  obtain ⟨d, hd, -⟩ := hb
                  exact absurd hd.1 (ha d)
          | some memberId =>
              cases hother : other.memberId with
              | none =>
                  rw [hown] at ha
                  rw [hother] at hb
                  obtain ⟨d, hd, -⟩ := ha
                  exact absurd hd.1 (hb d)
              | some otherId =>
                  rw [hown] at ha
                  rw [hother] at hb
                  obtain ⟨d, hd, rfl, -⟩ := ha
                  obtain ⟨e, he, rfl, -⟩ := hb
                  by_contra hne
                  exact huntied ⟨d, e, hd, he, fun heq => hne (by rw [heq])⟩

/-! ## Other orders -/

theorem Shuffled.mem_owned {member other : FormationMember} (h : Shuffled member other)
    {d : Declaration} : d ∈ other.owned ↔ d ∈ member.owned := by
  unfold FormationMember.owned
  rw [h.memberId]
  exact (h.ownedPaths.map _).mem_iff

theorem Shuffled.mem_testOwned {member other : FormationMember} (h : Shuffled member other)
    {d : Declaration} : d ∈ other.testOwned ↔ d ∈ member.testOwned := by
  unfold FormationMember.testOwned
  rw [h.memberId]
  exact (h.testOwnedPaths.map _).mem_iff

theorem Shuffled.mem_declarations {member other : FormationMember} (h : Shuffled member other)
    {d : Declaration} : d ∈ other.declarations ↔ d ∈ member.declarations := by
  unfold FormationMember.declarations
  rw [List.mem_append, List.mem_append, h.mem_owned, h.mem_testOwned]

theorem Shuffled.refl (member : FormationMember) : Shuffled member member :=
  ⟨rfl, .refl _, .refl _⟩

theorem Reordered.back {members others : List FormationMember} (h : Reordered members others) :
    ∀ other ∈ others, ∃ member ∈ members, Shuffled member other := by
  obtain ⟨mid, hperm, hall⟩ := h
  intro other hother
  obtain ⟨i, hi, rfl⟩ := List.getElem_of_mem hother
  have hlen := hall.length_eq
  exact ⟨mid[i], hperm.mem_iff.mpr (List.getElem_mem _), hall.get (by omega) hi⟩

theorem Reordered.forth {members others : List FormationMember} (h : Reordered members others) :
    ∀ member ∈ members, ∃ other ∈ others, Shuffled member other := by
  obtain ⟨mid, hperm, hall⟩ := h
  intro member hmember
  obtain ⟨i, hi, rfl⟩ := List.getElem_of_mem (hperm.mem_iff.mp hmember)
  have hlen := hall.length_eq
  exact ⟨others[i], List.getElem_mem _, hall.get hi (by omega)⟩

theorem Reordered.covering {members others : List FormationMember} (h : Reordered members others)
    {d : Declaration} : Covering others relPath d ↔ Covering members relPath d := by
  constructor
  · rintro ⟨⟨other, hother, hd⟩, hcover⟩
    obtain ⟨member, hmember, hshuffled⟩ := h.back other hother
    exact ⟨⟨member, hmember, hshuffled.mem_declarations.mp hd⟩, hcover⟩
  · rintro ⟨⟨member, hmember, hd⟩, hcover⟩
    obtain ⟨other, hother, hshuffled⟩ := h.forth member hmember
    exact ⟨⟨other, hother, hshuffled.mem_declarations.mpr hd⟩, hcover⟩

theorem Reordered.longest {members others : List FormationMember} (h : Reordered members others)
    {d : Declaration} : Longest others relPath d ↔ Longest members relPath d :=
  and_congr h.covering (forall_congr' fun _ => imp_congr_left h.covering)

theorem Reordered.tied {members others : List FormationMember} (h : Reordered members others) :
    Tied others relPath ↔ Tied members relPath :=
  exists_congr fun _ => exists_congr fun _ => and_congr h.longest (and_congr_left' h.longest)

theorem Reordered.resolved {members others : List FormationMember} (h : Reordered members others)
    {answer : Except OwnershipTie Ownership} (hanswer : Resolved others relPath answer) :
    Resolved members relPath answer := by
  cases answer with
  | error tie => exact h.tied.mp hanswer
  | ok owner =>
      refine ⟨fun htied => hanswer.1 (h.tied.mpr htied), ?_⟩
      have howner := hanswer.2
      cases hown : owner.memberId with
      | none =>
          rw [hown] at howner
          exact fun d hd => howner d (h.covering.mpr hd)
      | some memberId =>
          rw [hown] at howner
          obtain ⟨d, hd, hrest⟩ := howner
          exact ⟨d, h.longest.mp hd, hrest⟩

theorem Reordered.earlyTie {members others : List FormationMember} (h : Reordered members others)
    (htie : EarlyTie others relPath) : EarlyTie members relPath := by
  obtain ⟨other, hother, rival, hrival, hne, d, hd, g, hdcover, hgcover, hlen, hbest, hrest⟩ := htie
  obtain ⟨member, hmember, hshuffled⟩ := h.back other hother
  obtain ⟨first, hfirst, hrivalShuffled⟩ := h.back rival hrival
  refine ⟨member, hmember, first, hfirst, ?_, d, hshuffled.mem_declarations.mp hd, g, hdcover,
    hgcover, hlen, fun e he => hbest e (hshuffled.mem_declarations.mpr he), ?_⟩
  · rw [← hshuffled.memberId, ← hrivalShuffled.memberId]
    exact hne
  · rcases hrest with howned | ⟨htest, hshort⟩
    · exact .inl (hrivalShuffled.mem_owned.mp howned)
    · exact .inr ⟨hrivalShuffled.mem_testOwned.mp htest,
        fun e he => hshort e (hrivalShuffled.mem_owned.mpr he)⟩

/-! ## An order that comes to the tie -/

variable (relPath) in
theorem scan_alone (member : FormationMember) :
    ∃ scan, member.declarations.foldlM (offer relPath) {} = .ok scan := by
  cases hscan : member.declarations.foldlM (offer relPath) {} with
  | ok scan => exact ⟨scan, rfl⟩
  | error tie =>
      obtain ⟨pre, x, post, scan, hds, hpre, hx⟩ := Except.foldlM_error hscan
      obtain ⟨b, hb, -, -, hne⟩ := offer_error hx
      have hmem : b ∈ pre := by
        have hbest : Best relPath ([] ++ pre) scan := Best.start.declarations hpre
        exact (hbest.best b hb).1
      have hid : ∀ e ∈ pre ++ x :: post, e.memberId = member.memberId := by
        intro e he
        exact memberId_of_mem (hds ▸ he)
      refine absurd ((hid b (List.mem_append_left _ hmem)).trans ?_) hne
      exact (hid x (List.mem_append_right _ (List.mem_cons_self ..))).symm

theorem scan_shorter {ds : List Declaration} {scan : Scan}
    (h : ∀ d ∈ ds, declarationCovers d.glob relPath = true → (d.glob.length : Int) ≤ scan.bestLen) :
    (∃ tie, ds.foldlM (offer relPath) scan = .error tie) ∨
      ds.foldlM (offer relPath) scan = .ok scan := by
  induction ds with
  | nil => exact .inr rfl
  | cons d ds ih =>
      rw [List.foldlM_cons]
      cases hd : offer relPath scan d with
      | error tie => exact .inl ⟨tie, rfl⟩
      | ok scan' =>
          obtain rfl := offer_shorter hd (h d (List.mem_cons_self ..))
          exact ih fun e he => h e (List.mem_cons_of_mem _ he)

theorem perm_head {globs : List String} {glob : String} (h : glob ∈ globs) :
    (glob :: globs.erase glob).Perm globs :=
  (List.perm_cons_erase h).symm

theorem exists_error {members : List FormationMember} (h : EarlyTie members relPath) :
    ∃ others, Reordered members others ∧ ∃ tie, scanMembers relPath others = .error tie := by
  obtain ⟨member, hmember, rival, hrival, hne, d, hd, g, hdcover, hgcover, hlen, hbest, hrest⟩ := h
  have hrest' : rival ∈ members.erase member :=
    (List.mem_erase_of_ne fun heq => hne (by rw [heq])).mpr hrival
  have hperm : members.Perm (member :: rival :: (members.erase member).erase rival) :=
    (List.perm_cons_erase hmember).trans ((List.perm_cons_erase hrest').cons _)
  have hsame : ∀ ms : List FormationMember, List.Forall₂ Shuffled ms ms := fun ms =>
    List.forall₂_same.mpr fun m _ => Shuffled.refl m
  obtain ⟨scan, hscan⟩ := scan_alone relPath member
  have hknown : Best relPath member.declarations scan :=
    Best.start.declarations hscan
  have hlongest : scan.bestLen = d.glob.length := by
    have hle := hknown.longest d hd hdcover
    cases hb : scan.best with
    | none =>
        rw [hknown.unowned hb] at hle
        omega
    | some b =>
        obtain ⟨hbmem, hbcover, hblen⟩ := hknown.best b hb
        have hle' := hbest b hbmem hbcover
        rw [hblen] at hle ⊢
        omega
  obtain ⟨b, hb⟩ : ∃ b, scan.best = some b := by
    cases hb : scan.best with
    | some b => exact ⟨b, rfl⟩
    | none =>
        rw [hknown.unowned hb] at hlongest
        omega
  have hbId : b.memberId = member.memberId := memberId_of_mem (hknown.best b hb).1
  -- it suffices that the rival's globs, put in some order, raise from here
  have hgId : g.memberId = rival.memberId := by
    rcases hrest with howned | ⟨htest, -⟩
    · exact memberId_of_mem (List.mem_append_left _ howned)
    · exact memberId_of_mem (List.mem_append_right _ htest)
  have htie : ∃ tie, offer relPath scan g = .error tie := by
    refine ⟨_, offer_tie hb hgcover ?_ ?_⟩
    · rw [hlongest, hlen]
    · rw [hbId, hgId]
      exact hne
  obtain ⟨tie, htie⟩ := htie
  have hdone : ∀ other, Shuffled rival other →
      (∃ tie, other.declarations.foldlM (offer relPath) scan = .error tie) →
      ∃ others, Reordered members others ∧ ∃ tie, scanMembers relPath others = .error tie := by
    rintro other hshuffled ⟨tie, herror⟩
    refine ⟨member :: other :: (members.erase member).erase rival,
      ⟨_, hperm, .cons (.refl _) (.cons hshuffled (hsame _))⟩, tie, ?_⟩
    rw [scanMembers, List.foldlM_cons, hscan]
    change List.foldlM _ scan _ = _
    rw [List.foldlM_cons, herror]
    rfl
  rcases hrest with howned | ⟨htest, hshort⟩
  · obtain ⟨glob, hglob, rfl⟩ := List.mem_map.mp howned
    refine hdone { rival with ownedPaths := glob :: rival.ownedPaths.erase glob }
      ⟨rfl, perm_head hglob, .refl _⟩ ⟨tie, ?_⟩
    have hhead : offer relPath scan ⟨rival.memberId, glob, false⟩ = .error tie := htie
    change List.foldlM _ scan (Declaration.mk rival.memberId glob false :: _) = _
    rw [List.foldlM_cons, hhead]
    rfl
  · obtain ⟨glob, hglob, rfl⟩ := List.mem_map.mp htest
    refine hdone { rival with testOwnedPaths := glob :: rival.testOwnedPaths.erase glob }
      ⟨rfl, .refl _, perm_head hglob⟩ ?_
    have hshorter : ∀ e ∈ rival.owned, declarationCovers e.glob relPath = true →
        (e.glob.length : Int) ≤ scan.bestLen := by
      intro e he hcover
      rw [hlongest, hlen]
      exact_mod_cast hshort e he hcover
    change ∃ tie, List.foldlM _ scan (rival.owned ++ _ :: _) = _
    rw [List.foldlM_append]
    rcases scan_shorter hshorter with ⟨tie', herror⟩ | hok
    · exact ⟨tie', by rw [herror]; rfl⟩
    · refine ⟨tie, ?_⟩
      have hhead : offer relPath scan ⟨rival.memberId, glob, true⟩ = .error tie := htie
      rw [hok]
      change (Declaration.mk rival.memberId glob true :: _).foldlM (offer relPath) scan = _
      rw [List.foldlM_cons, hhead]
      rfl

end

/-- `owner_of` answers by the longest match in every order exactly where a tie that can be come to
early is a tie of the longest. -/
theorem ownerOf_order_free (manifest : FormationManifest) (rawPath projectRoot : String) :
    OrderFree manifest rawPath projectRoot ↔
      ∀ relPath, relativeToRoot rawPath projectRoot = some relPath →
        EarlyTie manifest.members relPath → Tied manifest.members relPath := by
  constructor
  · intro h relPath hrel htie
    obtain ⟨others, hothers, tie, herror⟩ := exists_error htie
    have hresolved := (h others hothers).1
    rw [hrel] at hresolved
    have hanswer : ownerOf { manifest with members := others } rawPath projectRoot =
        .error tie := by
      unfold ownerOf
      rw [hrel]
      dsimp only
      rw [herror]
      rfl
    rw [hanswer] at hresolved
    exact hothers.tied.mp hresolved
  · intro h others hothers
    cases hrel : relativeToRoot rawPath projectRoot with
    | none =>
        refine ⟨ownerOf_none hrel, ?_⟩
        rw [ownerOf_none hrel, ownerOf_none hrel]
    | some relPath =>
        have hright := resolved_ownerOf hrel (h relPath hrel)
        have hothersRight : Resolved others relPath
            (ownerOf { manifest with members := others } rawPath projectRoot) :=
          resolved_ownerOf hrel
            fun htie => hothers.tied.mpr (h relPath hrel (hothers.earlyTie htie))
        exact ⟨hothersRight, outcome_unique (hothers.resolved hothersRight) hright⟩

/-! ### A longer glob that comes too late -/

/-- A formation of the members with these globs. -/
def sampleFormation (globs : List (String × String)) : FormationManifest where
  formationId := "f"
  createdUtc := ""
  updatedUtc := ""
  orchestratorRunPath := "runs/o"
  members := globs.map fun m => { memberId := m.1, client := "c", ownedPaths := [m.2] }

def tiedGlobs : List (String × String) := [("a", "src/**"), ("b", "src/x*"), ("c", "src/x/y.py")]

/-- Two members with different globs of one length come before the member whose glob is the path
itself. -/
theorem ownerOf_order_decides :
    (validate (sampleFormation tiedGlobs)).toOption.isSome = true ∧
    outcome (ownerOf (sampleFormation tiedGlobs) "src/x/y.py" "/repo") = none ∧
    outcome (ownerOf (sampleFormation tiedGlobs.reverse) "src/x/y.py" "/repo") =
      some (some "c") ∧
    ¬ OrderFree (sampleFormation tiedGlobs) "src/x/y.py" "/repo" := by
  have hraised : outcome (ownerOf (sampleFormation tiedGlobs) "src/x/y.py" "/repo") = none := by
    decide
  have howned : outcome (ownerOf (sampleFormation tiedGlobs.reverse) "src/x/y.py" "/repo") =
      some (some "c") := by
    decide
  refine ⟨by decide, hraised, howned, fun hfree => ?_⟩
  have hreordered : Reordered (sampleFormation tiedGlobs).members
      (sampleFormation tiedGlobs.reverse).members :=
    ⟨_, (List.reverse_perm _).symm, List.forall₂_same.mpr fun m _ => .refl m⟩
  have hsame := (hfree _ hreordered).2
  rw [hraised] at hsame
  exact absurd (howned.symm.trans hsame) (by decide)

end TrwMcp.Formation
