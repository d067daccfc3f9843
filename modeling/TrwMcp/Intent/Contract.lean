import TrwMcp.Lib.Dict
import TrwMcp.Lib.Glob
import Mathlib.Data.List.Count
import Mathlib.Data.List.DropRight

/-!
# Intent contracts

The contract snapshot the blocking channels work on, and which paths its claims anchor. Claims keep
their document order and ids may repeat; `byId` is only meaningful for an id that does not.
-/

namespace TrwMcp.Intent

open Lib

inductive AuthorityClass where
  | humanApproved | policyDerived | minedProvisional | observational
  deriving DecidableEq, Repr

inductive ClaimState where
  | active | suspect | stale | anchorLost | superseded | expired
  deriving DecidableEq, Repr

inductive BindingChannel where
  | blockingHook | postEditCheck | prBatch | advisory | none
  deriving DecidableEq, Repr

def AuthorityClass.value : AuthorityClass → String
  | humanApproved => "human_approved"
  | policyDerived => "policy_derived"
  | minedProvisional => "mined_provisional"
  | observational => "observational"

def ClaimState.value : ClaimState → String
  | active => "active"
  | suspect => "suspect"
  | stale => "stale"
  | anchorLost => "anchor_lost"
  | superseded => "superseded"
  | expired => "expired"

def BindingChannel.value : BindingChannel → String
  | blockingHook => "blocking_hook"
  | postEditCheck => "post_edit_check"
  | prBatch => "pr_batch"
  | advisory => "advisory"
  | none => "none"

/-- `BINDING_AUTHORITY` -/
def AuthorityClass.isBinding : AuthorityClass → Bool
  | humanApproved | policyDerived => true
  | minedProvisional | observational => false

/-- `FalsifierRef` -/
inductive FalsifierRef where
  | pytest (nodeId : String)
  | argv (argv : List String)
  deriving DecidableEq, Repr

structure MustNotHappenClaim where
  claimId : String
  text : String
  authorityClass : AuthorityClass
  state : ClaimState
  machineCheckable : Bool
  bindingChannel : BindingChannel
  anchors : List String := []
  falsifiers : List FalsifierRef := []
  supersededBy : Option String := none
  deriving DecidableEq, Repr

structure Contract where
  contractId : String := ""
  claims : List MustNotHappenClaim := []
  deriving DecidableEq, Repr

namespace Contract

/-- The ids seen so far, and those seen again. -/
def collect (acc : List String × List String) (claim : MustNotHappenClaim) :
    List String × List String :=
  if claim.claimId ∈ acc.1 then (acc.1, acc.2.insert claim.claimId)
  else (acc.1.insert claim.claimId, acc.2)

def duplicateIds (k : Contract) : List String := (k.claims.foldl collect ([], [])).2

/-- A later claim of the same id replaces the earlier one. -/
def byId (k : Contract) : Dict String MustNotHappenClaim :=
  Dict.ofPairs (k.claims.map fun c => (c.claimId, c))

/-! ## Ids -/

theorem foldl_collect (claims : List MustNotHappenClaim) :
    (∀ id, id ∈ (claims.foldl collect ([], [])).1 ↔ id ∈ claims.map (·.claimId)) ∧
    (∀ id, id ∈ (claims.foldl collect ([], [])).2 ↔ 2 ≤ (claims.map (·.claimId)).count id) := by
  induction claims using List.reverseRecOn with
  | nil => simp
  | append_singleton claims c ih =>
      obtain ⟨hseen, hdupes⟩ := ih
      rw [List.foldl_append, List.foldl_cons, List.foldl_nil]
      generalize claims.foldl collect ([], []) = acc at hseen hdupes
      have hcount (id : String) : ((claims ++ [c]).map (·.claimId)).count id =
          (claims.map (·.claimId)).count id + if c.claimId = id then 1 else 0 := by
        simp [List.count_append, List.count_cons]
      unfold collect
      split
      · next h =>
        refine ⟨fun id => ?_, fun id => ?_⟩
        · have hc := (hseen c.claimId).mp h
          rw [hseen, List.map_append, List.mem_append]
          refine ⟨.inl, fun h' => h'.elim (fun h0 => h0) fun h1 => ?_⟩
          simp only [List.map_cons, List.map_nil, List.mem_singleton] at h1
          exact h1 ▸ hc
        · have hc := List.count_pos_iff.mpr ((hseen c.claimId).mp h)
          rw [List.mem_insert_iff, hdupes, hcount]
          by_cases hid : c.claimId = id
          · subst hid
            refine ⟨fun _ => ?_, fun _ => .inl rfl⟩
            rw [if_pos rfl]
            omega
          · simp [hid, Ne.symm hid]
      · next h =>
        have hc : (claims.map (·.claimId)).count c.claimId = 0 :=
          List.count_eq_zero.mpr fun hmem => h ((hseen _).mpr hmem)
        refine ⟨fun id => ?_, fun id => ?_⟩
        · rw [List.mem_insert_iff, hseen, List.map_append, List.mem_append, or_comm]
          simp
        · rw [hdupes, hcount]
          by_cases hid : c.claimId = id
          · subst hid
            rw [hc]
            simp
          · simp [hid]

theorem mem_duplicateIds {k : Contract} {id : String} :
    id ∈ k.duplicateIds ↔ 2 ≤ (k.claims.map (·.claimId)).count id :=
  (foldl_collect k.claims).2 id

theorem eq_of_not_duplicate {k : Contract} {c d : MustNotHappenClaim}
    (hdup : c.claimId ∉ k.duplicateIds) (hc : c ∈ k.claims) (hd : d ∈ k.claims)
    (hid : d.claimId = c.claimId) : d = c := by
  rw [mem_duplicateIds] at hdup
  obtain ⟨before, after, hsplit⟩ := List.append_of_mem hc
  rw [hsplit] at hdup hd
  have hnone : c.claimId ∉ before.map (·.claimId) ∧ c.claimId ∉ after.map (·.claimId) := by
    simp only [List.map_append, List.map_cons, List.count_append, List.count_cons_self] at hdup
    refine ⟨fun h => ?_, fun h => ?_⟩ <;>
    · have := List.count_pos_iff.mpr h
      omega
  rcases List.mem_append.mp hd with h | h
  · exact absurd (hid ▸ List.mem_map_of_mem h) hnone.1
  · rcases List.mem_cons.mp h with rfl | h
    · rfl
    · exact absurd (hid ▸ List.mem_map_of_mem h) hnone.2

theorem of_byId {k : Contract} {id : String} {c : MustNotHappenClaim}
    (h : Dict.lookup k.byId id = some c) : c ∈ k.claims ∧ c.claimId = id := by
  obtain ⟨d, hd, hpair⟩ := List.mem_map.mp (Dict.mem_of_lookup_ofPairs h)
  obtain ⟨rfl, rfl⟩ := Prod.ext_iff.mp hpair
  exact ⟨hd, rfl⟩

theorem byId_of_mem {k : Contract} {c : MustNotHappenClaim} (hc : c ∈ k.claims)
    (hdup : c.claimId ∉ k.duplicateIds) : Dict.lookup k.byId c.claimId = some c := by
  have hpair : (c.claimId, c) ∈ k.claims.map fun c => (c.claimId, c) :=
    List.mem_map.mpr ⟨c, hc, rfl⟩
  obtain ⟨d, hd⟩ := Dict.lookup_ofPairs_isSome hpair
  obtain ⟨hmem, hid⟩ := of_byId hd
  rw [byId, hd, eq_of_not_duplicate hdup hc hmem hid]

end Contract

/-! ## Anchors -/

/-- `text.rstrip("/")` -/
def rstripSlash (text : String) : String :=
  String.ofList (text.toList.rdropWhile (· == '/'))

def globChars : List Char := ['*', '?', '[']

def isGlobAnchor (anchor : String) : Bool := anchor.toList.any (· ∈ globChars)

/-- The members of a set as `fnmatch` reads them: only a leading `!` negates. -/
def fnmatchSet : List Char → Glob.Item
  | '!' :: stuff => .set true (Glob.readRanges stuff)
  | stuff => .set false (Glob.readRanges stuff)

/-- What stands between `[` and the `]` that ends the set, for `fnmatch`. -/
def fnmatchBody : List Char → Option (List Char)
  | '!' :: rest => (Glob.bracketBody rest).map ('!' :: ·)
  | rest => Glob.bracketBody rest

/-- `fnmatch.translate`, as the items of the pattern. A set is read where it starts, and its other
characters are skipped. -/
@[grind =] def fnmatchItems : List Char → Nat → List Glob.Item
  | [], _ => []
  | _ :: cs, skip + 1 => fnmatchItems cs skip
  | '*' :: cs, 0 => .star :: fnmatchItems cs 0
  | '?' :: cs, 0 => .one :: fnmatchItems cs 0
  | '[' :: cs, 0 =>
      match fnmatchBody cs with
      | none => .lit '[' :: fnmatchItems cs 0
      | some stuff => fnmatchSet stuff :: fnmatchItems cs (stuff.length + 1)
  | c :: cs, 0 => .lit c :: fnmatchItems cs 0

/-- `fnmatch.fnmatchcase` -/
def fnmatchcase (name pat : String) : Bool := Glob.allMatch (fnmatchItems pat.toList 0) name.toList

def anchorMatches (anchor relPath : String) : Bool :=
  if anchor = "" ∨ relPath = "" then false
  else
    let normalized := rstripSlash anchor
    if isGlobAnchor normalized then fnmatchcase relPath normalized
    else relPath == normalized || (normalized ++ "/").toList.isPrefixOf relPath.toList

/-- The enforcement-eligibility filter. -/
def MustNotHappenClaim.isEligible (claim : MustNotHappenClaim) : Bool :=
  claim.bindingChannel == .blockingHook && claim.machineCheckable && claim.state == .active

def eligibleClaims (contract : Contract) : List MustNotHappenClaim :=
  contract.claims.filter (·.isEligible)

/-- An anchor of the claim covers the path. -/
def MustNotHappenClaim.coversPath (claim : MustNotHappenClaim) (relPath : String) : Bool :=
  claim.anchors.any fun a => anchorMatches a relPath

def claimsMatchingPath (claims : List MustNotHappenClaim) (relPath : String) :
    List MustNotHappenClaim :=
  claims.filter (·.coversPath relPath)

theorem MustNotHappenClaim.coversPath_mono {c d : MustNotHappenClaim} {p : String}
    (hsub : ∀ a ∈ c.anchors, a ∈ d.anchors) (h : c.coversPath p = true) :
    d.coversPath p = true := by
  obtain ⟨a, ha, hmatch⟩ := List.any_eq_true.mp h
  exact List.any_eq_true.mpr ⟨a, hsub a ha, hmatch⟩

end TrwMcp.Intent
