import TrwMcp.Intent.Contract
import TrwMcp.Lib.Run
import Mathlib.Data.List.Sort

/-!
# The weaken predicate

`evaluateClaimWeakening` compares two complete snapshots by claim id, before any eligibility filter.
An edit with no hit keeps what binding claims protect in one step; over several edits it does so as
long as every claim that is handed over is handed over to a binding one.
-/

namespace TrwMcp.Intent

open Lib

structure WeakenedClaim where
  claimId : String
  condition : String
  detail : String
  deriving DecidableEq, Repr

/-- `_DOWNGRADED_CHANNELS` -/
def BindingChannel.isDowngraded : BindingChannel → Bool
  | postEditCheck | prBatch | advisory | none => true
  | blockingHook => false

/-- `_binding` -/
def MustNotHappenClaim.isBinding (claim : MustNotHappenClaim) : Bool :=
  claim.authorityClass.isBinding

def isValidSupersession (base candidate : MustNotHappenClaim) (snapshot : Contract) : Bool :=
  if candidate.state ≠ .superseded ∨ candidate.supersededBy.getD "" = "" then false
  else
    match Dict.lookup snapshot.byId (candidate.supersededBy.getD "") with
    | none => false
    | some successor =>
        if successor.claimId ∈ snapshot.duplicateIds then false
        else
          successor.state == .active && successor.machineCheckable &&
            successor.bindingChannel == .blockingHook &&
            base.anchors.all (· ∈ successor.anchors)

/-- `tuple(sorted(set(base.anchors) - set(candidate.anchors)))` -/
def removedAnchors (base candidate : MustNotHappenClaim) : List String :=
  (base.anchors.dedup.filter (· ∉ candidate.anchors)).insertionSort (· ≤ ·)

/-- One condition of the comparison: a hit where it is met. -/
def hitIf (met : Bool) (claimId condition detail : String) : List WeakenedClaim :=
  if met then [⟨claimId, condition, detail⟩] else []

/-- `_field_conditions` -/
def fieldConditions (base candidate : MustNotHappenClaim) : List WeakenedClaim :=
  let cid := base.claimId
  hitIf (base.isBinding && !candidate.isBinding) cid "C3"
      ("authority_class " ++ base.authorityClass.value ++ " -> " ++
        candidate.authorityClass.value) ++
    hitIf (base.state == .active && candidate.state != .active) cid "C3"
      ("state active -> " ++ candidate.state.value) ++
    hitIf (base.falsifiers != candidate.falsifiers) cid "C4"
      ("falsifiers " ++ if candidate.falsifiers = [] then "emptied" else "added or changed") ++
    hitIf (base.machineCheckable && !candidate.machineCheckable) cid "C5"
      "machine_checkable true -> false" ++
    hitIf (removedAnchors base candidate != []) cid "C6"
      ("anchors removed: " ++ ", ".intercalate (removedAnchors base candidate)) ++
    hitIf (base.bindingChannel == .blockingHook && candidate.bindingChannel.isDowngraded) cid "C7"
      ("binding_channel blocking_hook -> " ++ candidate.bindingChannel.value)

/-- An id that repeats in either snapshot cannot be compared. -/
def ambiguousIds (base candidate : Contract) : List String :=
  (base.duplicateIds ++ candidate.duplicateIds).dedup

def duplicateHits (base candidate : Contract) (claimId : String) : List WeakenedClaim :=
  hitIf ((base.claims ++ candidate.claims).any fun c => c.claimId == claimId && c.isBinding)
    claimId "C1" "duplicate claim_id — unresolvable by id, treated as weakened"

/-- The comparison of the claims of one id. -/
def pairHits (base candidate : Contract) (claimId : String) : List WeakenedClaim :=
  match Dict.lookup base.byId claimId, Dict.lookup candidate.byId claimId with
  | some baseClaim, none => hitIf baseClaim.isBinding claimId "C2" "claim removed from candidate"
  | none, some candidateClaim =>
      hitIf (candidateClaim.isBinding && candidateClaim.falsifiers != []) claimId "C4"
        "falsifier added on a new binding claim"
  | none, none => []
  | some baseClaim, some candidateClaim =>
      if !(baseClaim.isBinding || candidateClaim.isBinding) then []
      else if isValidSupersession baseClaim candidateClaim candidate then []
      else fieldConditions baseClaim candidateClaim

/-- The ids of both snapshots that do not repeat, sorted. -/
def comparedIds (base candidate : Contract) : List String :=
  (((base.byId.map (·.1) ++ candidate.byId.map (·.1)).dedup).insertionSort (· ≤ ·)).filter
    (· ∉ ambiguousIds base candidate)

def evaluateClaimWeakening (base candidate : Option Contract) : List WeakenedClaim :=
  let baseSnapshot := base.getD {}
  let candidateSnapshot := candidate.getD {}
  ((ambiguousIds baseSnapshot candidateSnapshot).insertionSort (· ≤ ·)).flatMap
      (duplicateHits baseSnapshot candidateSnapshot) ++
    (comparedIds baseSnapshot candidateSnapshot).flatMap (pairHits baseSnapshot candidateSnapshot)

/-! ## What a clean comparison says -/

@[simp] theorem hitIf_eq_nil {met : Bool} {id condition detail : String} :
    hitIf met id condition detail = [] ↔ met = false := by
  cases met <;> simp [hitIf]

theorem removedAnchors_eq_nil {base candidate : MustNotHappenClaim} :
    removedAnchors base candidate = [] ↔ ∀ a ∈ base.anchors, a ∈ candidate.anchors := by
  unfold removedAnchors
  have hperm := List.perm_insertionSort (· ≤ ·)
    (base.anchors.dedup.filter (· ∉ candidate.anchors))
  constructor
  · intro h a ha
    rw [h, List.nil_perm, List.filter_eq_nil_iff] at hperm
    simpa using hperm a (List.mem_dedup.mpr ha)
  · intro h
    have hnil : base.anchors.dedup.filter (· ∉ candidate.anchors) = [] :=
      List.filter_eq_nil_iff.mpr fun a ha => by simpa using h a (List.mem_dedup.mp ha)
    rw [hnil] at hperm ⊢
    exact List.perm_nil.mp hperm

theorem mem_ambiguousIds {base candidate : Contract} {id : String} :
    id ∈ ambiguousIds base candidate ↔ id ∈ base.duplicateIds ∨ id ∈ candidate.duplicateIds := by
  simp [ambiguousIds]

section

variable {base candidate : Contract} {c d : MustNotHappenClaim}

theorem not_ambiguous_of_clean (h : evaluateClaimWeakening (some base) (some candidate) = [])
    (hc : c ∈ base.claims) (hb : c.isBinding = true) :
    c.claimId ∉ ambiguousIds base candidate := by
  intro hmem
  rw [evaluateClaimWeakening, List.append_eq_nil_iff, List.flatMap_eq_nil_iff] at h
  have hdup := h.1 c.claimId ((List.mem_insertionSort _).mpr hmem)
  rw [duplicateHits, hitIf_eq_nil, List.any_eq_false] at hdup
  exact hdup c (List.mem_append_left _ hc) (by simp [hb])

theorem pairHits_of_clean (h : evaluateClaimWeakening (some base) (some candidate) = [])
    (hc : c ∈ base.claims) (hid : c.claimId ∉ ambiguousIds base candidate) :
    pairHits base candidate c.claimId = [] := by
  rw [evaluateClaimWeakening, List.append_eq_nil_iff, List.flatMap_eq_nil_iff,
    List.flatMap_eq_nil_iff] at h
  refine h.2 c.claimId ?_
  rw [mem_ambiguousIds, not_or] at hid
  have hlookup := Contract.byId_of_mem hc hid.1
  refine List.mem_filter.mpr ⟨(List.mem_insertionSort _).mpr (List.mem_dedup.mpr ?_), ?_⟩
  · exact List.mem_append_left _ (List.mem_map_of_mem (Dict.mem_of_lookup hlookup))
  · exact decide_eq_true (by rw [Option.getD_some, Option.getD_some, mem_ambiguousIds, not_or]
                             exact hid)

theorem kept_of_clean (h : evaluateClaimWeakening (some base) (some candidate) = [])
    (hc : c ∈ base.claims) (hb : c.isBinding = true) :
    ∃ d ∈ candidate.claims, d.claimId = c.claimId ∧
      (isValidSupersession c d candidate = true ∨ fieldConditions c d = []) := by
  have hid := not_ambiguous_of_clean h hc hb
  have hpair := pairHits_of_clean h hc hid
  rw [mem_ambiguousIds, not_or] at hid
  rw [pairHits, Contract.byId_of_mem hc hid.1] at hpair
  cases hd : Dict.lookup candidate.byId c.claimId with
  | none =>
      rw [hd, hitIf_eq_nil] at hpair
      exact absurd hb (by simp [hpair])
  | some d =>
      obtain ⟨hmem, hsame⟩ := Contract.of_byId hd
      rw [hd] at hpair
      refine ⟨d, hmem, hsame, ?_⟩
      simp only [hb, Bool.true_or, Bool.not_true, Bool.false_eq_true, if_false] at hpair
      split at hpair
      · next hvalid => exact .inl hvalid
      · exact .inr hpair

theorem eligible_of_fieldConditions (h : fieldConditions c d = []) (hc : c.isEligible = true)
    (hb : c.isBinding = true) :
    d.isEligible = true ∧ d.isBinding = true ∧ ∀ a ∈ c.anchors, a ∈ d.anchors := by
  simp only [MustNotHappenClaim.isEligible, Bool.and_eq_true, beq_iff_eq] at hc ⊢
  obtain ⟨⟨hchannel, hcheckable⟩, hstate⟩ := hc
  simp only [fieldConditions, List.append_eq_nil_iff, hitIf_eq_nil, hb, hchannel, hcheckable,
    hstate, beq_self_eq_true, Bool.true_and, Bool.not_eq_false', bne_eq_false_iff_eq] at h
  obtain ⟨⟨⟨⟨⟨hbinding, hactive⟩, _⟩, hmachine⟩, hanchors⟩, hdown⟩ := h
  refine ⟨⟨⟨?_, hmachine⟩, hactive⟩, hbinding, removedAnchors_eq_nil.mp hanchors⟩
  cases hd : d.bindingChannel with
  | blockingHook => rfl
  | postEditCheck | prBatch | advisory | none => simp [hd, BindingChannel.isDowngraded] at hdown

theorem isValidSupersession_eq_true (h : isValidSupersession c d candidate = true) :
    ∃ s ∈ candidate.claims, d.supersededBy = some s.claimId ∧ s.isEligible = true ∧
      ∀ a ∈ c.anchors, a ∈ s.anchors := by
  unfold isValidSupersession at h
  split at h
  · cases h
  · next hlink =>
    rw [not_or] at hlink
    cases hs : Dict.lookup candidate.byId (d.supersededBy.getD "") with
    | none => simp [hs] at h
    | some s =>
        obtain ⟨hmem, hid⟩ := Contract.of_byId hs
        simp only [hs] at h
        split at h
        · cases h
        · simp only [Bool.and_eq_true, beq_iff_eq, List.all_eq_true, decide_eq_true_eq] at h
          obtain ⟨⟨⟨hactive, hmachine⟩, hchannel⟩, hanchors⟩ := h
          refine ⟨s, hmem, ?_, ?_, hanchors⟩
          · cases hby : d.supersededBy with
            | none => simp [hby] at hlink
            | some id => rw [hid, hby, Option.getD_some]
          · simp [MustNotHappenClaim.isEligible, hactive, hmachine, hchannel]

end

/-! ## Protection over a sequence of edits -/

/-- One contract edit that the predicate does not flag. -/
def UnflaggedEdit (base candidate next : Contract) : Prop :=
  next = candidate ∧ evaluateClaimWeakening (some base) (some candidate) = []

/-- Every protecting claim that the edit hands over goes to a successor of binding authority. -/
def BindingHandover (base candidate : Contract) : Prop :=
  ∀ c ∈ eligibleClaims base, c.isBinding = true → ∀ d ∈ candidate.claims,
    d.claimId = c.claimId → isValidSupersession c d candidate = true →
    ∀ s ∈ candidate.claims, d.supersededBy = some s.claimId → s.isBinding = true

/-- A binding claim protects the path. -/
def ProtectedBinding (k : Contract) (relPath : String) : Prop :=
  ∃ c ∈ eligibleClaims k, c.isBinding = true ∧ c.coversPath relPath = true

/-- An enforceable claim of any authority protects the path. -/
def Protected (k : Contract) (relPath : String) : Prop :=
  ∃ c ∈ eligibleClaims k, c.coversPath relPath = true

theorem ProtectedBinding.edit {base candidate next : Contract} {p : String}
    (h : ProtectedBinding base p) (hedit : UnflaggedEdit base candidate next)
    (hhand : BindingHandover base candidate) : ProtectedBinding next p := by
  obtain ⟨rfl, hclean⟩ := hedit
  obtain ⟨c, hc, hb, hcovers⟩ := h
  have hbase := List.mem_of_mem_filter hc
  have heligible : c.isEligible = true := List.of_mem_filter hc
  obtain ⟨d, hd, hid, hvalid | hfields⟩ := kept_of_clean hclean hbase hb
  · obtain ⟨s, hs, hby, hsEligible, hanchors⟩ := isValidSupersession_eq_true hvalid
    exact ⟨s, List.mem_filter.mpr ⟨hs, hsEligible⟩, hhand c hc hb d hd hid hvalid s hs hby,
      MustNotHappenClaim.coversPath_mono hanchors hcovers⟩
  · obtain ⟨hdEligible, hdBinding, hanchors⟩ := eligible_of_fieldConditions hfields heligible hb
    exact ⟨d, List.mem_filter.mpr ⟨hd, hdEligible⟩, hdBinding, MustNotHappenClaim.coversPath_mono hanchors hcovers⟩

/-- Over any number of unflagged edits, a path a binding claim protects stays protected, as long as
no edit hands such a claim over to a successor that does not bind. -/
theorem protection_kept {k₀ kₙ : Contract} {edits : List Contract}
    (hrun : Run (fun k x k' => UnflaggedEdit k x k' ∧ BindingHandover k x) k₀ edits kₙ)
    (p : String) (h : ProtectedBinding k₀ p) : Protected kₙ p := by
  have hbinding : ProtectedBinding kₙ p :=
    hrun.invariant (I := fun k => ProtectedBinding k p) h
      fun _ _ _ hk hstep => hk.edit hstep.1 hstep.2
  obtain ⟨c, hc, _, hcovers⟩ := hbinding
  exact ⟨c, hc, hcovers⟩

/-! ## The handover that loses a path -/

/-- A human approved claim that guards one file. -/
def guardClaim : MustNotHappenClaim where
  claimId := "C-1"
  text := "the schema file is edited by hand"
  authorityClass := .humanApproved
  state := .active
  machineCheckable := true
  bindingChannel := .blockingHook
  anchors := ["db/schema.sql"]

/-- A mined claim over the same file. -/
def minedClaim : MustNotHappenClaim :=
  { guardClaim with claimId := "C-2", authorityClass := .minedProvisional }

def handedOver : MustNotHappenClaim :=
  { guardClaim with state := .superseded, supersededBy := some "C-2" }

theorem protection_kept_sample : Protected ⟨"", [guardClaim, minedClaim]⟩ "db/schema.sql" := by
  have hedit : UnflaggedEdit ⟨"", [guardClaim]⟩ ⟨"", [guardClaim, minedClaim]⟩
      ⟨"", [guardClaim, minedClaim]⟩ := ⟨rfl, by decide +kernel⟩
  have hhand : BindingHandover ⟨"", [guardClaim]⟩ ⟨"", [guardClaim, minedClaim]⟩ := by
    intro c hc _ d hd _ hvalid
    have hstate : ∀ d ∈ [guardClaim, minedClaim], d.state ≠ .superseded := by decide
    simp [isValidSupersession, hstate d hd] at hvalid
  exact protection_kept (Run.single ⟨hedit, hhand⟩) "db/schema.sql"
    ⟨guardClaim, by decide, by decide, by decide⟩

/-- Two unflagged edits that end all protection: the claim is handed over to a mined one, and then
the mined one is removed. -/
theorem protection_lost : ¬ ∀ (k₀ kₙ : Contract) (edits : List Contract) (p : String),
    Run UnflaggedEdit k₀ edits kₙ → ProtectedBinding k₀ p → Protected kₙ p := by
  intro h
  have hfirst : UnflaggedEdit ⟨"", [guardClaim]⟩ ⟨"", [handedOver, minedClaim]⟩
      ⟨"", [handedOver, minedClaim]⟩ := ⟨rfl, by decide +kernel⟩
  have hsecond : UnflaggedEdit ⟨"", [handedOver, minedClaim]⟩ ⟨"", [handedOver]⟩
      ⟨"", [handedOver]⟩ := ⟨rfl, by decide +kernel⟩
  obtain ⟨c, hc, _⟩ := h _ _ _ "db/schema.sql" ((Run.single hfirst).snoc hsecond)
    ⟨guardClaim, by decide, by decide, by decide⟩
  have hnone : eligibleClaims ⟨"", [handedOver]⟩ = [] := by decide
  rw [hnone] at hc
  cases hc

end TrwMcp.Intent
