import TrwMcp.Lib.Dict
import TrwMcp.Lib.Text
import Mathlib.Algebra.Order.Ring.Rat

/-!
# Which rows a recall shows

A recall reads its namespaces in order. A query takes rows from growing pages of a namespace's
candidates until enough are taken; a fetch by ids settles each id at the first namespace that holds
an admitted row for it.
-/

namespace TrwMcp.Recall

open Lib

/-- `MemoryEntry`: the fields a recall compares. -/
structure MemoryEntry where
  id : String
  namespace_ : String
  status : String
  importance : ℚ
  tags : List String
  updatedAt : Int
  deriving DecidableEq

/-- `RecallAdmission`: `admit` of one row, and the status asked for. -/
structure RecallAdmission where
  admits : MemoryEntry → Bool
  memStatus : Option String

/-- `RecallSpec`: what the taking of rows reads. -/
structure RecallSpec where
  admission : RecallAdmission
  query : List Char := ['*']
  ids : List String := []
  tags : Option (List String) := none
  minImpact : ℚ := 0
  topK : Nat := 25
  singlePage : Bool := false

/-- `REPRESENTATIVE_LOOKUP_SLACK` -/
def representativeLookupSlack : Nat := 64

/-- `DEFAULT_LIST_LIMIT` -/
def defaultListLimit : Nat := 10000

/-- `USER_NAMESPACE` -/
def userNamespace : String := "user:local"

/-- `apply_entry_filters` -/
def applyEntryFilters (entry : MemoryEntry) (tags : Option (List String))
    (memStatus : Option String) (minImpact : ℚ) : Bool :=
  if 0 < minImpact ∧ entry.importance < minImpact then false
  else if memStatus.any (· ≠ entry.status) then false
  else (tags.getD []).all (entry.tags.contains ·)

/-- `max(candidates, key=(updated_at, namespace))`: the first of the greatest. -/
def newest : List MemoryEntry → Option MemoryEntry
  | [] => none
  | e :: rest => some (rest.foldl (fun best e =>
      if best.updatedAt < e.updatedAt ∨
        (best.updatedAt = e.updatedAt ∧ best.namespace_ < e.namespace_) then e else best) e)

/-- `RecallAdmission.representative` -/
def RecallAdmission.representative (admission : RecallAdmission) (rows : List MemoryEntry) :
    Option MemoryEntry :=
  newest (rows.filter admission.admits)

/-! ## Taking hits -/

/-- `by_id`: the hits of every id, the ids in the order of their first hit. -/
def groupById (hits : List MemoryEntry) : Dict String (List MemoryEntry) :=
  hits.foldl (fun d hit => Dict.set d hit.id ((Dict.lookup d hit.id).getD [] ++ [hit])) []

/-- What a round has taken and what every round has looked up. -/
structure Round where
  taken : List MemoryEntry
  resolved : Dict String (Option MemoryEntry)

/-- The fixed arguments of `take_hits`. -/
structure TakeArgs where
  spec : RecallSpec
  cap : Nat
  seen : List String
  rowsFor : Option (String → List MemoryEntry) := none
  claimed : Option (String → Bool) := none

section

variable (args : TakeArgs)

def TakeArgs.budget : Nat := args.cap + representativeLookupSlack

/-- A looked-up row that the search would show. -/
def shows (hits : List MemoryEntry) (row : MemoryEntry) : Bool :=
  applyEntryFilters row args.spec.tags args.spec.admission.memStatus args.spec.minImpact &&
    (["*".toList, []].contains (Text.stripChars args.spec.query) ||
      (hits.map fun hit => (hit.id, hit.namespace_)).contains (row.id, row.namespace_))

def Round.take (r : Round) (hits : List MemoryEntry) (row : Option MemoryEntry) : Round :=
  match row with
  | some row => if shows args hits row then { r with taken := r.taken ++ [row] } else r
  | none => r

/-- The inner loop over `by_id.items()`. -/
def takeRound (hits : List MemoryEntry) : Dict String (List MemoryEntry) → Round → Round
  | [], r => r
  | (entryId, rows) :: rest, r =>
      if args.cap ≤ r.taken.length then r
      else if args.seen.contains entryId then takeRound hits rest r
      else
        match Dict.lookup r.resolved entryId with
        | some row => takeRound hits rest (r.take args hits row)
        | none =>
            if args.budget ≤ r.resolved.length then r
            else
              let candidates := match args.rowsFor with
                | some rowsFor => rowsFor entryId
                | none => rows
              let row := if args.claimed.any (· entryId) then none
                else args.spec.admission.representative candidates
              takeRound hits rest
                (Round.take args { r with resolved := Dict.set r.resolved entryId row } hits row)

/-- The outer loop, for as many rounds as it is given. -/
def takeRounds (page : Nat → List MemoryEntry) : Nat → Nat → Dict String (Option MemoryEntry) →
    Option (List MemoryEntry)
  | 0, _, _ => none
  | rounds + 1, topK, resolved =>
      let hits := page topK
      let r := takeRound args hits (groupById hits) ⟨[], resolved⟩
      if args.cap ≤ r.taken.length ∨ args.budget ≤ r.resolved.length ∨ hits.length < topK ∨
          defaultListLimit ≤ topK ∨ args.spec.singlePage = true then
        some r.taken
      else takeRounds page rounds (min (topK * 4) defaultListLimit) r.resolved

/-- `take_hits` -/
def takeHits (rounds : Nat) (page : Nat → List MemoryEntry) : Option (List MemoryEntry) :=
  takeRounds args page rounds args.spec.topK []

end

/-! ## Settling ids -/

/-- `list(dict.fromkeys(ids))` -/
def fromkeys (ids : List String) : List String :=
  ids.foldl (fun keys id => if keys.contains id then keys else keys ++ [id]) []

/-- `settle_ids`, over the ids left and the rows taken. -/
def settleIds (admission : RecallAdmission) (rowsFor : String → List MemoryEntry)
    (cap : Option Nat) : List String → Dict String MemoryEntry → Nat → Dict String MemoryEntry
  | [], found, _ => found
  | entryId :: rest, found, taken =>
      if cap.any (· ≤ taken) then found
      else if Dict.has found entryId then settleIds admission rowsFor cap rest found taken
      else
        match admission.representative (rowsFor entryId) with
        | some row =>
            settleIds admission rowsFor cap rest (Dict.set found entryId row) (taken + 1)
        | none => settleIds admission rowsFor cap rest found taken

/-! ## Recall -/

section

variable (spec : RecallSpec) (userRecallCap : Nat) (page : String → Nat → List MemoryEntry)
  (row : String → String → Option MemoryEntry)

/-- The cap of a namespace in a search. -/
def capOf (namespace_ : String) : Nat :=
  if namespace_ = userNamespace then userRecallCap else spec.topK

/-- `rows_in` -/
def rowsIn (namespace_ entryId : String) : List MemoryEntry := (row namespace_ entryId).toList

/-- The rows found by their ids, namespace by namespace. -/
def settleAll (namespaces : List String) : Dict String MemoryEntry :=
  namespaces.foldl (fun found namespace_ =>
    settleIds spec.admission (rowsIn row namespace_)
      (if namespace_ = userNamespace then some userRecallCap else none) (fromkeys spec.ids)
      found 0) []

/-- An earlier namespace holds an admitted row under the id. -/
def claimedBy (earlier : List String) (entryId : String) : Bool :=
  earlier.any fun prior => (spec.admission.representative (rowsIn row prior entryId)).isSome

/-- The search over the namespaces left. -/
def searchFrom (rounds : Nat) : List String → List String → List String → List MemoryEntry →
    Option (List MemoryEntry)
  | _, [], _, admitted => some admitted
  | earlier, namespace_ :: rest, seen, admitted => do
      let taken ← takeHits
        { spec
          cap := capOf spec userRecallCap namespace_
          seen
          claimed := if earlier.isEmpty then none else some (claimedBy spec row earlier) }
        rounds (page namespace_)
      searchFrom rounds (earlier ++ [namespace_]) rest (seen ++ taken.map (·.id))
        (admitted ++ taken)

/-- `recall_namespaces`, with a bound on the rounds of each namespace. -/
def recallNamespaces (rounds : Nat) (namespaces : List String) : Option (List MemoryEntry) :=
  if spec.ids ≠ [] then
    let found := settleAll spec userRecallCap row namespaces
    some ((fromkeys spec.ids).filterMap (Dict.lookup found))
  else searchFrom spec userRecallCap page row rounds [] namespaces [] []

end

end TrwMcp.Recall
