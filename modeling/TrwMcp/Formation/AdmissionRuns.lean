import TrwMcp.Formation.Admission

/-!
# What a failed commit leaves

The batch and the move back change each candidate in a way that does not depend on the others, and
the records are written and deleted key by key; so what `commit_admissions` leaves can be read off
the stores it began with.
-/

namespace TrwMcp.Formation

open Lib

variable {formationId : String}

/-! ## The batch -/

/-- A candidate the formation may admit, or has admitted. -/
def Admissible (formationId : String) (c : Candidate) : Prop :=
  c.state = .active ∨ c.state = .admitted ∧ c.admittedFormation = some formationId

/-- Another formation holds it. -/
def Foreign (formationId : String) (c : Candidate) : Prop :=
  c.state = .admitted ∧ c.admittedFormation ≠ some formationId

def Candidate.grant (c : Candidate) (formationId : String) : Candidate :=
  { c with state := .admitted, admittedFormation := some formationId }

/-- What a release makes of a candidate. -/
def Candidate.release (c : Candidate) : Candidate :=
  if c.state = .admitted then { c with state := .active, admittedFormation := none } else c

theorem Candidate.release_state (c : Candidate) : c.release.state ≠ .admitted := by
  unfold Candidate.release
  split
  · nofun
  · next h => exact h

theorem Candidate.release_release (c : Candidate) : c.release.release = c.release := by
  rw [Candidate.release, if_neg c.release_state]

theorem applyTransition_admission {c : Candidate} :
    applyTransition c .admitted (some (some formationId)) =
      if c.state = .active ∨ c.state = .admitted ∧ c.admittedFormation = some formationId then
        .ok (c.grant formationId)
      else .error (.cannotMove c.candidateId c.state c.admittedFormation .admitted) := by
  unfold applyTransition Candidate.grant
  cases hstate : c.state <;> simp [CandidateState.transitions, eq_comm]

theorem applyTransition_release {c : Candidate} :
    applyTransition c .active (some none) =
      if c.state = .admitted ∨ c.state = .active ∧ c.admittedFormation = none then
        .ok { c with state := .active, admittedFormation := none }
      else .error (.cannotMove c.candidateId c.state c.admittedFormation .active) := by
  unfold applyTransition
  cases hstate : c.state <;> simp [CandidateState.transitions, eq_comm]

theorem move_admission {records : Dict String Candidate} {a : AdmittedMember} :
    (∃ records', moveCandidate records (admissionOp formationId a) = .ok records') ↔
      ∃ c, Dict.lookup records a.found.candidateId = some c ∧ Admissible formationId c := by
  unfold moveCandidate admissionOp
  dsimp only
  cases hfound : Dict.lookup records a.found.candidateId with
  | none => simp
  | some c =>
      simp only [applyTransition_admission]
      split
      · next updated heq =>
          split at heq
          · next hok => exact iff_of_true ⟨_, rfl⟩ ⟨c, rfl, hok⟩
          · cases heq
      · next fault heq =>
        have hok : ¬ Admissible formationId c := by
          intro hok
          rw [if_pos (show c.state = .active ∨ _ from hok)] at heq
          cases heq
        refine iff_of_false ?_ ?_
        · rintro ⟨_, h⟩
          cases h
        · rintro ⟨_, ⟨⟩, h⟩
          exact hok h

theorem move_admission_eq {records records' : Dict String Candidate} {a : AdmittedMember}
    (h : moveCandidate records (admissionOp formationId a) = .ok records') (id : String) :
    Dict.lookup records' id =
      if id = a.found.candidateId then (Dict.lookup records id).map (·.grant formationId)
      else Dict.lookup records id := by
  unfold moveCandidate admissionOp at h
  dsimp only at h
  cases hfound : Dict.lookup records a.found.candidateId with
  | none =>
      rw [hfound] at h
      cases h
  | some c =>
      rw [hfound] at h
      simp only [applyTransition_admission] at h
      split at h
      · next updated heq =>
          split at heq
          · obtain rfl := Except.ok.inj heq
            obtain rfl := Except.ok.inj h
            rw [Dict.lookup_set]
            split
            · next hid => rw [hid, hfound, Option.map_some]
            · rfl
          · cases heq
      · cases h

theorem move_release {records : Dict String Candidate} {id : String} :
    (∃ records', moveCandidate records (releaseOp formationId id) = .ok records') ↔
      ∀ c, Dict.lookup records id = some c → ¬ Foreign formationId c := by
  unfold moveCandidate releaseOp
  dsimp only
  cases hfound : Dict.lookup records id with
  | none => simp
  | some c =>
      dsimp only
      split
      · next hforeign =>
          refine iff_of_false ?_ fun h => h c rfl hforeign
          rintro ⟨_, h⟩
          cases h
      · next hown =>
          refine iff_of_true ?_ ?_
          · split
            · exact ⟨_, rfl⟩
            · exact ⟨_, rfl⟩
          · rintro c' ⟨⟩
            exact hown

theorem move_release_eq {records records' : Dict String Candidate} {id : String}
    (h : moveCandidate records (releaseOp formationId id) = .ok records') (other : String) :
    Dict.lookup records' other =
      if other = id then (Dict.lookup records other).map (·.release)
      else Dict.lookup records other := by
  unfold moveCandidate releaseOp at h
  dsimp only at h
  cases hfound : Dict.lookup records id with
  | none =>
      rw [hfound] at h
      obtain rfl := Except.ok.inj h
      split
      · next heq => rw [heq, hfound, Option.map_none]
      · rfl
  | some c =>
      rw [hfound] at h
      dsimp only at h
      split at h
      · cases h
      · simp only [applyTransition_release] at h
        split at h
        · next updated heq =>
            split at heq
            · next hstate =>
                obtain rfl := Except.ok.inj heq
                obtain rfl := Except.ok.inj h
                rw [Dict.lookup_set]
                split
                · next hid =>
                    rw [hid, hfound, Option.map_some, Candidate.release]
                    rcases hstate with hstate | ⟨hstate, hnone⟩
                    · rw [if_pos hstate]
                    · rw [if_neg (by rw [hstate]; decide)]
                      cases c
                      simp_all
                · rfl
            · cases heq
        · next fault heq =>
            split at heq
            · cases heq
            · next hstate =>
                obtain rfl := Except.ok.inj h
                split
                · next hid =>
                    rw [hid, hfound, Option.map_some, Candidate.release,
                      if_neg fun h => hstate (.inl h)]
                · rfl

theorem fold_admissions {xs : List AdmittedMember} {records : Dict String Candidate} :
    (∃ records', (xs.map (admissionOp formationId)).foldlM moveCandidate records = .ok records') ↔
      ∀ a ∈ xs, ∃ c, Dict.lookup records a.found.candidateId = some c ∧
        Admissible formationId c := by
  induction xs generalizing records with
  | nil => exact iff_of_true ⟨records, rfl⟩ nofun
  | cons x xs ih =>
      rw [List.map_cons, List.foldlM_cons, List.forall_mem_cons]
      constructor
      · rintro ⟨records', h⟩
        obtain ⟨mid, hmid, h⟩ := Except.bind_eq_ok.mp h
        have hx := move_admission.mp ⟨mid, hmid⟩
        refine ⟨hx, fun a ha => ?_⟩
        obtain ⟨c, hc, hok⟩ := ih.mp ⟨records', h⟩ a ha
        rw [move_admission_eq hmid] at hc
        split at hc
        · next heq => exact heq ▸ hx
        · exact ⟨c, hc, hok⟩
      · rintro ⟨hx, hxs⟩
        obtain ⟨mid, hmid⟩ := move_admission.mpr hx
        have hrest : ∀ a ∈ xs, ∃ c, Dict.lookup mid a.found.candidateId = some c ∧
            Admissible formationId c := by
          intro a ha
          obtain ⟨c, hc, hok⟩ := hxs a ha
          rw [move_admission_eq hmid, hc]
          split
          · exact ⟨_, rfl, .inr ⟨rfl, rfl⟩⟩
          · exact ⟨c, rfl, hok⟩
        obtain ⟨records', h⟩ := ih.mpr hrest
        exact ⟨records', Except.bind_eq_ok.mpr ⟨mid, hmid, h⟩⟩

theorem fold_admissions_eq {xs : List AdmittedMember} {records records' : Dict String Candidate}
    (h : (xs.map (admissionOp formationId)).foldlM moveCandidate records = .ok records')
    (id : String) :
    Dict.lookup records' id =
      if id ∈ xs.map (·.found.candidateId) then
        (Dict.lookup records id).map (·.grant formationId)
      else Dict.lookup records id := by
  induction xs generalizing records with
  | nil =>
      obtain rfl : records = records' := Except.ok.inj h
      rfl
  | cons x xs ih =>
      rw [List.map_cons, List.foldlM_cons] at h
      obtain ⟨mid, hmid, h⟩ := Except.bind_eq_ok.mp h
      rw [ih h, move_admission_eq hmid, List.map_cons]
      by_cases hx : id = x.found.candidateId
      · rw [if_pos hx, if_pos (List.mem_cons.mpr (.inl hx))]
        split
        · rw [Option.map_map]
          rfl
        · rfl
      · rw [if_neg hx]
        simp only [List.mem_cons, hx, false_or]

theorem fold_releases {ids : List String} {records : Dict String Candidate} :
    (∃ records', (ids.map (releaseOp formationId)).foldlM moveCandidate records = .ok records') ↔
      ∀ id ∈ ids, ∀ c, Dict.lookup records id = some c → ¬ Foreign formationId c := by
  induction ids generalizing records with
  | nil => exact iff_of_true ⟨records, rfl⟩ nofun
  | cons x ids ih =>
      rw [List.map_cons, List.foldlM_cons, List.forall_mem_cons]
      constructor
      · rintro ⟨records', h⟩
        obtain ⟨mid, hmid, h⟩ := Except.bind_eq_ok.mp h
        have hx := move_release.mp ⟨mid, hmid⟩
        refine ⟨hx, fun id hid c hc => ?_⟩
        by_cases heq : id = x
        · exact hx c (heq ▸ hc)
        · refine ih.mp ⟨records', h⟩ id hid c ?_
          rw [move_release_eq hmid, if_neg heq, hc]
      · rintro ⟨hx, hids⟩
        obtain ⟨mid, hmid⟩ := move_release.mpr hx
        have hrest : ∀ id ∈ ids, ∀ c, Dict.lookup mid id = some c → ¬ Foreign formationId c := by
          intro id hid c hc
          rw [move_release_eq hmid] at hc
          split at hc
          · obtain ⟨c', -, rfl⟩ := Option.map_eq_some_iff.mp hc
            exact fun hforeign => c'.release_state hforeign.1
          · exact hids id hid c hc
        obtain ⟨records', h⟩ := ih.mpr hrest
        exact ⟨records', Except.bind_eq_ok.mpr ⟨mid, hmid, h⟩⟩

theorem fold_releases_eq {ids : List String} {records records' : Dict String Candidate}
    (h : (ids.map (releaseOp formationId)).foldlM moveCandidate records = .ok records')
    (id : String) :
    Dict.lookup records' id =
      if id ∈ ids then (Dict.lookup records id).map (·.release) else Dict.lookup records id := by
  induction ids generalizing records with
  | nil =>
      obtain rfl : records = records' := Except.ok.inj h
      rfl
  | cons x ids ih =>
      rw [List.map_cons, List.foldlM_cons] at h
      obtain ⟨mid, hmid, h⟩ := Except.bind_eq_ok.mp h
      rw [ih h, move_release_eq hmid]
      by_cases hx : id = x
      · rw [if_pos hx, if_pos (List.mem_cons.mpr (.inl hx))]
        split
        · rw [Option.map_map]
          exact congrArg (Option.map · _) (funext fun c => c.release_release)
        · rfl
      · rw [if_neg hx]
        simp only [List.mem_cons, hx, false_or]

/-! ## The stores -/

section

variable {resolve : String → String} {orchestratorRun : String} {fails : Nat → Bool}
variable {stores : AdmissionStores} {admitted : List AdmittedMember} {released : List String}

/-- The candidates the call admits. -/
def admittedIds (admitted : List AdmittedMember) : List String :=
  admitted.map (·.found.candidateId)

/-- The batch is legal: every candidate is admissible, and no other formation holds one that is
released. -/
structure Legal (stores : AdmissionStores) (formationId : String) (admitted : List AdmittedMember)
    (released : List String) : Prop where
  admissible : ∀ a ∈ admitted, ∃ c, stores.candidate a.found.candidateId = some c ∧
    Admissible formationId c
  own : ∀ id ∈ released, id ∉ admittedIds admitted → ∀ c, stores.candidate id = some c →
    ¬ Foreign formationId c

/-- What the batch makes of a candidate. -/
def moved (formationId : String) (admitted : List AdmittedMember) (released : List String)
    (id : String) (c : Candidate) : Candidate :=
  let granted := if id ∈ admittedIds admitted then c.grant formationId else c
  if id ∈ released then granted.release else granted

theorem fold_moves {records : Dict String Candidate} :
    (∃ records', (admitted.map (admissionOp formationId) ++
        released.map (releaseOp formationId)).foldlM moveCandidate records = .ok records') ↔
      Legal ⟨some records, []⟩ formationId admitted released := by
  rw [List.foldlM_append]
  constructor
  · rintro ⟨records', h⟩
    obtain ⟨mid, hmid, h⟩ := Except.bind_eq_ok.mp h
    refine ⟨fold_admissions.mp ⟨mid, hmid⟩, fun id hid hnot c hc => ?_⟩
    refine fold_releases.mp ⟨records', h⟩ id hid c ?_
    rw [fold_admissions_eq hmid, if_neg (show id ∉ admitted.map _ from hnot)]
    exact hc
  · intro h
    obtain ⟨mid, hmid⟩ := fold_admissions.mpr h.admissible
    have hown : ∀ id ∈ released, ∀ c, Dict.lookup mid id = some c → ¬ Foreign formationId c := by
      intro id hid c hc
      rw [fold_admissions_eq hmid] at hc
      split at hc
      · obtain ⟨c', -, rfl⟩ := Option.map_eq_some_iff.mp hc
        exact fun hforeign => hforeign.2 rfl
      · next hnot => exact h.own id hid hnot c hc
    obtain ⟨records', h⟩ := fold_releases.mpr hown
    exact ⟨records', Except.bind_eq_ok.mpr ⟨mid, hmid, h⟩⟩

theorem fold_moves_eq {records records' : Dict String Candidate}
    (h : (admitted.map (admissionOp formationId) ++
      released.map (releaseOp formationId)).foldlM moveCandidate records = .ok records')
    (id : String) :
    Dict.lookup records' id =
      (Dict.lookup records id).map (moved formationId admitted released id) := by
  rw [List.foldlM_append] at h
  obtain ⟨mid, hmid, h⟩ := Except.bind_eq_ok.mp h
  rw [fold_releases_eq h, fold_admissions_eq hmid]
  unfold moved admittedIds
  split
  · split
    · rw [Option.map_map]
      rfl
    · rfl
  · split
    · rfl
    · simp

theorem setStates_moves :
    (∃ registry, setStates stores.registry (admitted.map (admissionOp formationId) ++
        released.map (releaseOp formationId)) = .ok registry) ↔
      Legal stores formationId admitted released := by
  unfold setStates
  split
  · next hnil =>
      obtain ⟨hadmitted, hreleased⟩ := List.append_eq_nil_iff.mp hnil
      rw [List.map_eq_nil_iff] at hadmitted hreleased
      subst hadmitted hreleased
      exact iff_of_true ⟨_, rfl⟩ ⟨nofun, nofun⟩
  · next hne =>
      cases hregistry : stores.registry with
      | none =>
          have hnone : ∀ id, stores.candidate id = none := fun id => by
            rw [AdmissionStores.candidate, hregistry]
            rfl
          dsimp only
          cases admitted with
          | nil =>
              have hnot : (List.map (admissionOp formationId) [] ++
                  released.map (releaseOp formationId)).any (·.required) = false := by
                rw [List.map_nil, List.nil_append, List.any_map, List.any_eq_false]
                intro id _
                simp [releaseOp]
              rw [hnot]
              refine iff_of_true ⟨_, rfl⟩ ⟨nofun, fun id _ _ c hc => ?_⟩
              rw [hnone] at hc
              cases hc
          | cons a rest =>
              rw [List.map_cons, List.cons_append, List.any_cons]
              refine iff_of_false ?_ fun h => ?_
              · rintro ⟨_, h⟩
                cases h
              · obtain ⟨c, hc, -⟩ := h.admissible a (List.mem_cons_self ..)
                rw [hnone] at hc
                cases hc
      | some records =>
          dsimp only
          have hcandidate : ∀ id, stores.candidate id =
              AdmissionStores.candidate ⟨some records, []⟩ id := fun id => by
            rw [AdmissionStores.candidate, hregistry]
            rfl
          have hlegal : Legal stores formationId admitted released ↔
              Legal ⟨some records, []⟩ formationId admitted released := by
            constructor
            · intro h
              exact ⟨fun a ha => hcandidate _ ▸ h.admissible a ha,
                fun id hid hnot c hc => h.own id hid hnot c ((hcandidate id).trans hc)⟩
            · intro h
              exact ⟨fun a ha => (hcandidate _).symm ▸ h.admissible a ha,
                fun id hid hnot c hc => h.own id hid hnot c ((hcandidate id).symm.trans hc)⟩
          rw [hlegal, ← fold_moves]
          constructor
          · rintro ⟨registry, h⟩
            cases hfold : List.foldlM moveCandidate records
              (admitted.map (admissionOp formationId) ++ released.map (releaseOp formationId)) with
            | ok records' => exact ⟨records', rfl⟩
            | error fault =>
                rw [hfold] at h
                cases h
          · rintro ⟨records', h⟩
            exact ⟨some records', by rw [h]; rfl⟩

theorem setStates_moves_eq {registry : Option (Dict String Candidate)}
    (h : setStates stores.registry (admitted.map (admissionOp formationId) ++
      released.map (releaseOp formationId)) = .ok registry) (id : String) :
    registry.bind (Dict.lookup · id) =
      (stores.candidate id).map (moved formationId admitted released id) := by
  unfold setStates at h
  split at h
  · next hnil =>
      obtain ⟨hadmitted, hreleased⟩ := List.append_eq_nil_iff.mp hnil
      rw [List.map_eq_nil_iff] at hadmitted hreleased
      subst hadmitted hreleased
      obtain rfl := Except.ok.inj h
      change stores.candidate id = _
      cases stores.candidate id <;> rfl
  · rw [AdmissionStores.candidate]
    cases hregistry : stores.registry with
    | none =>
        rw [hregistry] at h
        dsimp only at h
        split at h
        · cases h
        · obtain rfl := Except.ok.inj h
          rfl
    | some records =>
        rw [hregistry] at h
        dsimp only at h
        cases hfold : List.foldlM moveCandidate records (admitted.map (admissionOp formationId) ++
            released.map (releaseOp formationId)) with
        | error fault =>
            rw [hfold] at h
            cases h
        | ok records' =>
            rw [hfold] at h
            obtain rfl := Except.ok.inj h
            exact fold_moves_eq hfold id

/-! ## The records -/

theorem lookup_filter_ne (d : Dict String WorktreeRecord) (key other : String) :
    Dict.lookup (d.filter fun m => m.1 ≠ key) other =
      if other = key then none else Dict.lookup d other := by
  induction d with
  | nil => simp
  | cons m d ih =>
      obtain ⟨k, v⟩ := m
      by_cases hk : k = key
      · subst hk
        rw [List.filter_cons_of_neg (by simp), ih, Dict.lookup_cons]
        by_cases ho : other = k
        · simp [ho]
        · rw [if_neg ho, if_neg ho, if_neg (Ne.symm ho)]
      · rw [List.filter_cons_of_pos (by simpa using hk), Dict.lookup_cons, Dict.lookup_cons, ih]
        by_cases ho : k = other
        · subst ho
          simp [hk]
        · simp [ho]

/-- A record of the formation. -/
def OwnRecord (formationId : String) (record : Option WorktreeRecord) : Bool :=
  record.any fun r => r.formationId = formationId

theorem lookup_releaseWorktreeMember (stores : AdmissionStores) (worktree key : String) :
    Dict.lookup (stores.releaseWorktreeMember resolve formationId worktree).records key =
      if key = resolve worktree ∧ OwnRecord formationId (Dict.lookup stores.records key) = true then
        none
      else Dict.lookup stores.records key := by
  unfold AdmissionStores.releaseWorktreeMember
  cases hrecord : Dict.lookup stores.records (resolve worktree) with
  | none =>
      dsimp only
      rw [if_neg]
      rintro ⟨rfl, hown⟩
      rw [hrecord] at hown
      cases hown
  | some existing =>
      dsimp only
      split
      · next hother =>
          rw [if_neg]
          rintro ⟨rfl, hown⟩
          rw [hrecord] at hown
          exact hother (by simpa [OwnRecord] using hown)
      · next hown =>
          rw [lookup_filter_ne]
          by_cases hkey : key = resolve worktree
          · subst hkey
            rw [if_pos rfl, if_pos ⟨rfl, by rw [hrecord]; simpa [OwnRecord] using hown⟩]
          · rw [if_neg hkey, if_neg fun h => hkey h.1]

theorem registry_releaseWorktreeMember (stores : AdmissionStores) (worktree : String) :
    (stores.releaseWorktreeMember resolve formationId worktree).registry = stores.registry := by
  unfold AdmissionStores.releaseWorktreeMember
  split
  · split <;> rfl
  · rfl

variable (resolve formationId) in
theorem release_worktrees (worktrees : List String) (stores : AdmissionStores) :
    (worktrees.foldl (·.releaseWorktreeMember resolve formationId) stores).registry =
        stores.registry ∧
      ∀ key, Dict.lookup
          (worktrees.foldl (·.releaseWorktreeMember resolve formationId) stores).records key =
        if key ∈ worktrees.map resolve ∧
            OwnRecord formationId (Dict.lookup stores.records key) = true then none
        else Dict.lookup stores.records key := by
  induction worktrees generalizing stores with
  | nil => exact ⟨rfl, fun key => by simp⟩
  | cons w ws ih =>
      obtain ⟨hregistry, hrecords⟩ := ih (stores.releaseWorktreeMember resolve formationId w)
      refine ⟨hregistry.trans (registry_releaseWorktreeMember stores w), fun key => ?_⟩
      rw [List.foldl_cons, hrecords, lookup_releaseWorktreeMember]
      by_cases hown : OwnRecord formationId (Dict.lookup stores.records key) = true
      · by_cases hkey : key = resolve w
        · subst hkey
          have hgone : (if resolve w = resolve w ∧
              OwnRecord formationId (Dict.lookup stores.records (resolve w)) = true then none
              else Dict.lookup stores.records (resolve w)) = none := if_pos ⟨rfl, hown⟩
          rw [hgone, if_neg (by simp [OwnRecord]), if_pos ⟨List.mem_cons_self .., hown⟩]
        · simp [hkey, hown]
      · simp [hown]

/-- A record at the worktree names another formation that holds its candidate. -/
def heldElsewhere (stores : AdmissionStores) (formationId key : String) : Bool :=
  (Dict.lookup stores.records key).any fun r =>
    r.formationId ≠ formationId && stores.worktreeAdmittedBy key r.formationId

/-- The record of the admission cannot be written. -/
def obstructed (resolve : String → String) (fails : Nat → Bool) (stores : AdmissionStores)
    (formationId : String) (k : Nat) (a : AdmittedMember) : Bool :=
  a.found.worktree.any fun w => fails k || heldElsewhere stores formationId (resolve w)

/-- The admissions before the first whose record cannot be written. -/
@[grind =] def recordable (resolve : String → String) (fails : Nat → Bool) (stores : AdmissionStores)
    (formationId : String) : List AdmittedMember → Nat → List AdmittedMember
  | [], _ => []
  | a :: rest, k =>
      if obstructed resolve fails stores formationId k a then []
      else a :: recordable resolve fails stores formationId rest (k + 1)

/-- The record says what the admission asked for. -/
def Records (formationId orchestratorRun : String) (a : AdmittedMember) (r : WorktreeRecord) :
    Prop :=
  r.formationId = formationId ∧ r.memberId = a.memberId ∧
    r.manifestRevision = a.admittedRevision.getD 0 ∧ r.creatingRun = orchestratorRun

variable (resolve formationId orchestratorRun) in
theorem recordWorktreeMember_spec (s : AdmissionStores) (worktree : String) (a : AdmittedMember)
    (fails : Bool) :
    (∃ fault, s.recordWorktreeMember resolve worktree formationId a.memberId
        (a.admittedRevision.getD 0) orchestratorRun fails = .error fault ∧
        (fails || heldElsewhere s formationId (resolve worktree)) = true) ∨
      ∃ s' r, s.recordWorktreeMember resolve worktree formationId a.memberId
          (a.admittedRevision.getD 0) orchestratorRun fails = .ok s' ∧
        (fails || heldElsewhere s formationId (resolve worktree)) = false ∧
        s'.registry = s.registry ∧ Records formationId orchestratorRun a r ∧
        ∀ key, Dict.lookup s'.records key =
          if key = resolve worktree then some r else Dict.lookup s.records key := by
  unfold AdmissionStores.recordWorktreeMember heldElsewhere
  dsimp only
  cases hrecord : Dict.lookup s.records (resolve worktree) with
  | none =>
      dsimp only
      cases fails with
      | true => exact .inl ⟨_, rfl, rfl⟩
      | false =>
          exact .inr ⟨_, _, rfl, rfl, rfl, ⟨rfl, rfl, rfl, rfl⟩, fun key => Dict.lookup_set ..⟩
  | some existing =>
      dsimp only
      split
      · next hheld =>
          refine .inl ⟨_, rfl, ?_⟩
          simp [hheld.1, hheld.2]
      · next hheld =>
          cases fails with
          | true => exact .inl ⟨_, rfl, rfl⟩
          | false =>
              refine .inr ⟨_, _, rfl, ?_, rfl, ⟨rfl, rfl, rfl, rfl⟩, fun key => Dict.lookup_set ..⟩
              simpa using hheld

/-- The stores while the records are written: a worktree that has been written has a record of the
formation, and the others are held elsewhere as they were. -/
structure Writing (resolve : String → String) (formationId : String) (before s : AdmissionStores)
    (written : List String) : Prop where
  own : ∀ key ∈ written.map resolve, OwnRecord formationId (Dict.lookup s.records key) = true ∧
    heldElsewhere before formationId key = false
  held : ∀ key, key ∉ written.map resolve →
    heldElsewhere s formationId key = heldElsewhere before formationId key

theorem heldElsewhere_of_own {s : AdmissionStores} {key : String}
    (h : OwnRecord formationId (Dict.lookup s.records key) = true) :
    heldElsewhere s formationId key = false := by
  unfold heldElsewhere
  cases hrecord : Dict.lookup s.records key with
  | none => rfl
  | some r =>
      rw [hrecord] at h
      have hown : r.formationId = formationId := by simpa [OwnRecord] using h
      simp [hown]

theorem Writing.obstructed {before s : AdmissionStores} {written : List String}
    (h : Writing resolve formationId before s written) (key : String) :
    heldElsewhere s formationId key = heldElsewhere before formationId key := by
  by_cases hkey : key ∈ written.map resolve
  · rw [heldElsewhere_of_own (h.own key hkey).1, (h.own key hkey).2]
  · exact h.held key hkey

theorem worktreeAdmittedBy_congr {s s' : AdmissionStores} (h : s'.registry = s.registry)
    (key owner : String) : s'.worktreeAdmittedBy key owner = s.worktreeAdmittedBy key owner := by
  unfold AdmissionStores.worktreeAdmittedBy AdmissionStores.candidate
  rw [h]

variable (orchestratorRun fails) in
theorem recordAll_spec {before : AdmissionStores} (rest : List AdmittedMember) (k : Nat)
    (s : AdmissionStores) (written : List String)
    (hwriting : Writing resolve formationId before s written) :
    ∃ fault s', recordAll resolve formationId orchestratorRun fails rest k s written =
        (fault, s', written ++
          (recordable resolve fails before formationId rest k).filterMap (·.found.worktree)) ∧
      (fault = none ↔ recordable resolve fails before formationId rest k = rest) ∧
      s'.registry = s.registry ∧
      ∀ key, Dict.lookup s'.records key = Dict.lookup s.records key ∧
          (∀ a ∈ recordable resolve fails before formationId rest k,
            a.found.worktree.map resolve ≠ some key) ∨
        ∃ a ∈ recordable resolve fails before formationId rest k,
          a.found.worktree.map resolve = some key ∧
          ∃ r, Dict.lookup s'.records key = some r ∧ Records formationId orchestratorRun a r := by
  induction rest generalizing k s written with
  | nil => exact ⟨none, s, by simp [recordAll, recordable], by simp [recordable], rfl,
      fun key => .inl ⟨rfl, nofun⟩⟩
  | cons a rest ih =>
      cases hworktree : a.found.worktree with
      | none =>
          have hfree : obstructed resolve fails before formationId k a = false := by
            rw [obstructed, hworktree]
            rfl
          obtain ⟨fault, s', heq, hfault, hregistry, hrecords⟩ := ih (k + 1) s written hwriting
          rw [recordAll, hworktree, recordable, hfree]
          refine ⟨fault, s', ?_, ?_, hregistry, fun key => ?_⟩
          · dsimp only
            rw [heq]
            simp [hworktree]
          · simpa using hfault
          · rcases hrecords key with ⟨hsame, hnone⟩ | ⟨b, hb, hrest⟩
            · refine .inl ⟨hsame, fun b hb => ?_⟩
              rcases List.mem_cons.mp hb with rfl | hb
              · rw [hworktree]
                nofun
              · exact hnone b hb
            · exact .inr ⟨b, List.mem_cons_of_mem _ hb, hrest⟩
      | some w =>
          have hsame : obstructed resolve fails before formationId k a =
              (fails k || heldElsewhere s formationId (resolve w)) := by
            rw [obstructed, hworktree, Option.any_some, hwriting.obstructed]
          rw [recordAll, hworktree, recordable]
          dsimp only
          rcases recordWorktreeMember_spec formationId resolve orchestratorRun s w a (fails k) with
            ⟨fault, herror, hblocked⟩ | ⟨s₁, r, hok, hfree, hregistry₁, hr, hrecords₁⟩
          · rw [herror, hsame, hblocked]
            exact ⟨some fault, s, by simp, by simp, rfl, fun key => .inl ⟨rfl, nofun⟩⟩
          · rw [hok, hsame, hfree]
            have hself : OwnRecord formationId (Dict.lookup s₁.records (resolve w)) = true := by
              rw [hrecords₁, if_pos rfl]
              simpa [OwnRecord] using hr.1
            have hnext : Writing resolve formationId before s₁ (written ++ [w]) := by
              refine ⟨fun key hkey => ?_, fun key hkey => ?_⟩
              · by_cases heq : key = resolve w
                · subst heq
                  refine ⟨hself, ?_⟩
                  rw [← hwriting.obstructed]
                  exact (Bool.or_eq_false_iff.mp hfree).2
                · have hold : key ∈ written.map resolve := by
                    rw [List.map_append, List.mem_append] at hkey
                    exact hkey.resolve_right fun h => heq (List.mem_singleton.mp h)
                  rw [hrecords₁, if_neg heq]
                  exact hwriting.own key hold
              · rw [List.map_append, List.mem_append, not_or] at hkey
                have hne : key ≠ resolve w := fun h => hkey.2 (List.mem_singleton.mpr h)
                rw [← hwriting.held key hkey.1, heldElsewhere, heldElsewhere, hrecords₁,
                  if_neg hne]
                simp only [worktreeAdmittedBy_congr hregistry₁]
            obtain ⟨fault, s', heq, hfault, hregistry, hrecords⟩ :=
              ih (k + 1) s₁ (written ++ [w]) hnext
            refine ⟨fault, s', ?_, ?_, hregistry.trans hregistry₁, fun key => ?_⟩
            · dsimp only
              rw [heq]
              simp [hworktree]
            · simpa using hfault
            · rcases hrecords key with ⟨hkeep, hnone⟩ | ⟨b, hb, hrest⟩
              · by_cases hkey : key = resolve w
                · refine .inr ⟨a, List.mem_cons_self .., ?_, r, ?_, hr⟩
                  · rw [hworktree, hkey]
                    rfl
                  · rw [hkeep, hrecords₁, if_pos hkey]
                · refine .inl ⟨?_, fun b hb => ?_⟩
                  · rw [hkeep, hrecords₁, if_neg hkey]
                  · rcases List.mem_cons.mp hb with rfl | hb
                    · rw [hworktree]
                      exact fun h => hkey (Option.some.inj h).symm
                    · exact hnone b hb
              · exact .inr ⟨b, List.mem_cons_of_mem _ hb, hrest⟩

/-! ## Other formations -/

theorem worktreeAdmittedBy_iff {s : AdmissionStores} {key owner : String} :
    s.worktreeAdmittedBy key owner = true ↔ ∃ id c, s.candidate id = some c ∧
      c.worktree = some key ∧ c.state = .admitted ∧ c.admittedFormation = some owner := by
  unfold AdmissionStores.worktreeAdmittedBy
  rw [List.any_eq_true]
  constructor
  · rintro ⟨m, -, h⟩
    obtain ⟨c, hc, h⟩ := Option.any_eq_true .. |>.mp h
    exact ⟨m.1, c, hc, by simpa [and_assoc] using h⟩
  · rintro ⟨id, c, hc, h⟩
    cases hregistry : s.registry with
    | none =>
        rw [AdmissionStores.candidate, hregistry] at hc
        cases hc
    | some records =>
        have hmem : (id, c) ∈ records := by
          rw [AdmissionStores.candidate, hregistry] at hc
          exact Dict.mem_of_lookup hc
        refine ⟨(id, c), hmem, ?_⟩
        rw [hc]
        simpa [and_assoc] using h

theorem moved_foreign (hlegal : Legal stores formationId admitted released) {id : String}
    {c : Candidate} (hc : stores.candidate id = some c) (hforeign : Foreign formationId c) :
    moved formationId admitted released id c = c := by
  have hnot : id ∉ admittedIds admitted := by
    intro hid
    obtain ⟨a, ha, rfl⟩ := List.mem_map.mp hid
    obtain ⟨c', hc', hok⟩ := hlegal.admissible a ha
    obtain rfl := Option.some.inj (hc.symm.trans hc')
    rcases hok with hactive | ⟨-, hown⟩
    · rw [hforeign.1] at hactive
      cases hactive
    · exact hforeign.2 hown
  have hkept : id ∉ released := fun hid => hlegal.own id hid hnot c hc hforeign
  unfold moved
  rw [if_neg hnot, if_neg hkept]

theorem foreign_moved {id : String} {c : Candidate}
    (h : Foreign formationId (moved formationId admitted released id c)) :
    moved formationId admitted released id c = c := by
  unfold moved at h ⊢
  dsimp only at h ⊢
  split at h
  · exact absurd h.1 (Candidate.release_state _)
  · next hkept =>
      rw [if_neg hkept]
      split at h
      · exact absurd rfl h.2
      · next hnot => rw [if_neg hnot]

theorem held_freed (hlegal : Legal stores formationId admitted released) {freed : AdmissionStores}
    (hcandidate : ∀ id, freed.candidate id =
      (stores.candidate id).map (moved formationId admitted released id)) {keys : List String}
    (hrecords : ∀ key, Dict.lookup freed.records key =
      if key ∈ keys ∧ OwnRecord formationId (Dict.lookup stores.records key) = true then none
      else Dict.lookup stores.records key) (key : String) :
    heldElsewhere freed formationId key = heldElsewhere stores formationId key := by
  by_cases hown : OwnRecord formationId (Dict.lookup stores.records key) = true
  · rw [heldElsewhere_of_own hown]
    by_cases hkey : key ∈ keys
    · rw [heldElsewhere, hrecords, if_pos ⟨hkey, hown⟩]
      rfl
    · refine heldElsewhere_of_own ?_
      rw [hrecords, if_neg fun h => hkey h.1]
      exact hown
  · rw [heldElsewhere, heldElsewhere, hrecords, if_neg fun h => hown h.2]
    cases hrecord : Dict.lookup stores.records key with
    | none => rfl
    | some r =>
        rw [hrecord] at hown
        have hother : r.formationId ≠ formationId := by simpa [OwnRecord] using hown
        rw [Option.any_some, Option.any_some]
        congr 1
        rw [Bool.eq_iff_iff, worktreeAdmittedBy_iff, worktreeAdmittedBy_iff]
        have hforeign : ∀ c : Candidate, c.state = .admitted →
            c.admittedFormation = some r.formationId → Foreign formationId c :=
          fun c hstate hformation => ⟨hstate, fun h =>
            hother (Option.some.inj (hformation.symm.trans h))⟩
        constructor
        · rintro ⟨id, c, hc, hworktree, hstate, hformation⟩
          rw [hcandidate] at hc
          obtain ⟨c₀, hc₀, rfl⟩ := Option.map_eq_some_iff.mp hc
          have hsame := foreign_moved (hforeign _ hstate hformation)
          rw [hsame] at hworktree hstate hformation
          exact ⟨id, c₀, hc₀, hworktree, hstate, hformation⟩
        · rintro ⟨id, c, hc, hworktree, hstate, hformation⟩
          refine ⟨id, c, ?_, hworktree, hstate, hformation⟩
          rw [hcandidate, hc, Option.map_some,
            moved_foreign hlegal hc (hforeign c hstate hformation)]

/-! ## All or nothing -/

/-- The states, the formations and the records are as before. -/
def Unchanged (before after : AdmissionStores) : Prop :=
  (∀ id, (after.candidate id).map (fun c => (c.state, c.admittedFormation)) =
    (before.candidate id).map fun c => (c.state, c.admittedFormation)) ∧
  ∀ key, Dict.lookup after.records key = Dict.lookup before.records key

/-- An admission took effect. -/
def AdmissionTook (resolve : String → String) (formationId orchestratorRun : String)
    (after : AdmissionStores) (a : AdmittedMember) : Prop :=
  (∃ c, after.candidate a.found.candidateId = some c ∧ c.state = .admitted ∧
    c.admittedFormation = some formationId) ∧
  ∀ w, a.found.worktree = some w → ∃ r, Dict.lookup after.records (resolve w) = some r ∧
    Records formationId orchestratorRun a r

/-- A release that applied took effect: of the records of the formation only one that the call wrote
stands at the candidate's worktree. -/
def ReleaseTook (resolve : String → String) (formationId : String) (before after : AdmissionStores)
    (admitted : List AdmittedMember) (id : String) : Prop :=
  ∀ c, before.candidate id = some c → c.state = .admitted →
    (∃ c', after.candidate id = some c' ∧ c'.state = .active ∧ c'.admittedFormation = none) ∧
    ∀ w, c.worktree = some w → ∀ r, Dict.lookup after.records (resolve w) = some r →
      r.formationId = formationId →
        ∃ a ∈ admitted, a.found.worktree.map resolve = some (resolve w)

/-- Where the call raises nothing has changed, and where it returns everything took effect. -/
def AllOrNothing (resolve : String → String) (formationId orchestratorRun : String)
    (fails : Nat → Bool) (before : AdmissionStores) (admitted : List AdmittedMember)
    (released : List String) : Prop :=
  match commitAdmissions resolve formationId orchestratorRun fails before admitted released with
  | (some _, after) => Unchanged before after
  | (none, after) =>
      (∀ a ∈ admitted, AdmissionTook resolve formationId orchestratorRun after a) ∧
        ∀ id ∈ released, ReleaseTook resolve formationId before after admitted id

/-- What the undoing restores: the admitted candidates were free, no released one was held, and no
record is overwritten before the failure or deleted by a release. -/
structure Restorable (resolve : String → String) (formationId : String) (before : AdmissionStores)
    (admitted : List AdmittedMember) (released : List String) (reached : List AdmittedMember) :
    Prop where
  free : ∀ a ∈ admitted, ∀ c, before.candidate a.found.candidateId = some c →
    c.state = .active ∧ c.admittedFormation = none
  unheld : ∀ id ∈ released, ∀ c, before.candidate id = some c → c.state ≠ .admitted
  unwritten : ∀ a ∈ reached, ∀ w, a.found.worktree = some w →
    Dict.lookup before.records (resolve w) = none
  undeleted : ∀ id ∈ released, ∀ c, before.candidate id = some c → ∀ w, c.worktree = some w →
    OwnRecord formationId (Dict.lookup before.records (resolve w)) = false

/-- No candidate is both admitted and released, and two admissions of one worktree ask for the same
record. -/
structure Compatible (resolve : String → String) (admitted : List AdmittedMember)
    (released : List String) : Prop where
  apart : ∀ a ∈ admitted, a.found.candidateId ∉ released
  agree : ∀ a ∈ admitted, ∀ b ∈ admitted, ∀ w, a.found.worktree = some w →
    b.found.worktree.map resolve = some (resolve w) →
      b.memberId = a.memberId ∧ b.admittedRevision.getD 0 = a.admittedRevision.getD 0

theorem rollback_moves {registry : Option (Dict String Candidate)}
    (hcandidate : ∀ id, registry.bind (Dict.lookup · id) =
      (stores.candidate id).map (moved formationId admitted released id)) :
    ∃ registry', setStates registry
        (admitted.map fun a => releaseOp formationId a.found.candidateId) = .ok registry' ∧
      ∀ id, registry'.bind (Dict.lookup · id) = (stores.candidate id).map fun c =>
        if id ∈ admittedIds admitted then (moved formationId admitted released id c).release
        else moved formationId admitted released id c := by
  have hops : (admitted.map fun a => releaseOp formationId a.found.candidateId) =
      ([] : List AdmittedMember).map (admissionOp formationId) ++
        (admittedIds admitted).map (releaseOp formationId) := by
    rw [admittedIds, List.map_map, List.map_nil, List.nil_append]
    rfl
  have hlegal : Legal ⟨registry, []⟩ formationId [] (admittedIds admitted) := by
    refine ⟨nofun, fun id hid _ c hc hforeign => ?_⟩
    rw [show AdmissionStores.candidate ⟨registry, []⟩ id = _ from hcandidate id] at hc
    obtain ⟨c₀, -, rfl⟩ := Option.map_eq_some_iff.mp hc
    have hsame := foreign_moved hforeign
    rw [hsame] at hforeign
    unfold moved at hsame
    rw [if_pos hid] at hsame
    split at hsame
    · rw [← hsame] at hforeign
      exact Candidate.release_state _ hforeign.1
    · rw [← hsame] at hforeign
      exact hforeign.2 rfl
  obtain ⟨registry', h⟩ := setStates_moves.mpr hlegal
  refine ⟨registry', hops ▸ h, fun id => ?_⟩
  rw [setStates_moves_eq h,
    show AdmissionStores.candidate ⟨registry, []⟩ id = _ from hcandidate id, Option.map_map]
  refine congrArg (Option.map · _) (funext fun c => ?_)
  unfold moved
  rfl

variable (formationId stores admitted released) in
theorem undone_states :
    (∀ id, ((stores.candidate id).map fun c =>
        if id ∈ admittedIds admitted then (moved formationId admitted released id c).release
        else moved formationId admitted released id c).map
          (fun c => (c.state, c.admittedFormation)) =
      (stores.candidate id).map fun c => (c.state, c.admittedFormation)) ↔
      (∀ a ∈ admitted, ∀ c, stores.candidate a.found.candidateId = some c →
        c.state = .active ∧ c.admittedFormation = none) ∧
      ∀ id ∈ released, ∀ c, stores.candidate id = some c → c.state ≠ .admitted := by
  have hadmitted : ∀ id c, id ∈ admittedIds admitted →
      ((moved formationId admitted released id c).release.state = .active ∧
        (moved formationId admitted released id c).release.admittedFormation = none) := by
    intro id c hid
    unfold moved
    rw [if_pos hid]
    split
    · rw [Candidate.release_release]
      exact ⟨rfl, rfl⟩
    · exact ⟨rfl, rfl⟩
  constructor
  · intro h
    have hfree : ∀ id ∈ admittedIds admitted, ∀ c, stores.candidate id = some c →
        c.state = .active ∧ c.admittedFormation = none := by
      intro id hid c hc
      have hview := h id
      rw [hc, Option.map_some, if_pos hid, Option.map_some, Option.map_some] at hview
      obtain ⟨hstate, hformation⟩ := Prod.mk.inj (Option.some.inj hview)
      exact ⟨hstate.symm.trans (hadmitted id c hid).1,
        hformation.symm.trans (hadmitted id c hid).2⟩
    refine ⟨fun a ha => hfree _ (List.mem_map_of_mem ha), fun id hid c hc hstate => ?_⟩
    by_cases hin : id ∈ admittedIds admitted
    · rw [(hfree id hin c hc).1] at hstate
      cases hstate
    · have hview := h id
      rw [hc, Option.map_some, if_neg hin, Option.map_some, Option.map_some] at hview
      have hsame := (Prod.mk.inj (Option.some.inj hview)).1
      unfold moved at hsame
      rw [if_neg hin, if_pos hid] at hsame
      rw [← hsame] at hstate
      exact Candidate.release_state c hstate
  · rintro ⟨hfree, hunheld⟩ id
    cases hc : stores.candidate id with
    | none => rfl
    | some c =>
        rw [Option.map_some, Option.map_some, Option.map_some]
        split
        · next hin =>
            obtain ⟨a, ha, rfl⟩ := List.mem_map.mp hin
            rw [(hadmitted _ c hin).1, (hadmitted _ c hin).2, (hfree a ha c hc).1,
              (hfree a ha c hc).2]
        · next hin =>
            unfold moved
            rw [if_neg hin]
            split
            · next hid => rw [Candidate.release, if_neg (hunheld id hid c hc)]
            · rfl

theorem mem_releasedWorktrees {before : AdmissionStores} {key : String} :
    key ∈ (released.filterMap fun id => (before.candidate id).bind (·.worktree)).map resolve ↔
      ∃ id ∈ released, ∃ c, before.candidate id = some c ∧
        ∃ w, c.worktree = some w ∧ resolve w = key := by
  rw [List.mem_map]
  constructor
  · rintro ⟨w, hw, rfl⟩
    obtain ⟨id, hid, hw⟩ := List.mem_filterMap.mp hw
    obtain ⟨c, hc, hw⟩ := Option.bind_eq_some_iff.mp hw
    exact ⟨id, hid, c, hc, w, hw, rfl⟩
  · rintro ⟨id, hid, c, hc, w, hw, rfl⟩
    exact ⟨w, List.mem_filterMap.mpr ⟨id, hid, Option.bind_eq_some_iff.mpr ⟨c, hc, hw⟩⟩, rfl⟩

theorem mem_writtenWorktrees {reached : List AdmittedMember} {key : String} :
    key ∈ (reached.filterMap (·.found.worktree)).map resolve ↔
      ∃ a ∈ reached, a.found.worktree.map resolve = some key := by
  rw [List.mem_map]
  constructor
  · rintro ⟨w, hw, rfl⟩
    obtain ⟨a, ha, hw⟩ := List.mem_filterMap.mp hw
    exact ⟨a, ha, by rw [hw]; rfl⟩
  · rintro ⟨a, ha, hkey⟩
    obtain ⟨w, hw, rfl⟩ := Option.map_eq_some_iff.mp hkey
    exact ⟨w, List.mem_filterMap.mpr ⟨a, ha, hw⟩, rfl⟩

/-- The records the loop leaves, against those it began with. -/
def Written (resolve : String → String) (formationId orchestratorRun : String)
    (freed s : AdmissionStores) (reached : List AdmittedMember) : Prop :=
  ∀ key, Dict.lookup s.records key = Dict.lookup freed.records key ∧
      (∀ a ∈ reached, a.found.worktree.map resolve ≠ some key) ∨
    ∃ a ∈ reached, a.found.worktree.map resolve = some key ∧
      ∃ r, Dict.lookup s.records key = some r ∧ Records formationId orchestratorRun a r

theorem undone_records {before freed s : AdmissionStores} {reached : List AdmittedMember}
    (hfreed : ∀ key, Dict.lookup freed.records key =
      if key ∈ (released.filterMap fun id => (before.candidate id).bind (·.worktree)).map resolve ∧
          OwnRecord formationId (Dict.lookup before.records key) = true then none
      else Dict.lookup before.records key)
    (hwritten : Written resolve formationId orchestratorRun freed s reached) :
    (∀ key, Dict.lookup ((reached.filterMap (·.found.worktree)).foldl
        (·.releaseWorktreeMember resolve formationId) s).records key =
          Dict.lookup before.records key) ↔
      (∀ a ∈ reached, ∀ w, a.found.worktree = some w →
        Dict.lookup before.records (resolve w) = none) ∧
      ∀ id ∈ released, ∀ c, before.candidate id = some c → ∀ w, c.worktree = some w →
        OwnRecord formationId (Dict.lookup before.records (resolve w)) = false := by
  have hundone := (release_worktrees formationId resolve
    (reached.filterMap (·.found.worktree)) s).2
  have hown : ∀ key, key ∈ (reached.filterMap (·.found.worktree)).map resolve →
      OwnRecord formationId (Dict.lookup s.records key) = true := by
    intro key hkey
    obtain ⟨a, ha, hakey⟩ := mem_writtenWorktrees.mp hkey
    rcases hwritten key with ⟨-, hnone⟩ | ⟨b, -, -, r, hr, hrecords⟩
    · exact absurd hakey (hnone a ha)
    · rw [hr]
      simpa [OwnRecord] using hrecords.1
  have hkept : ∀ key, key ∉ (reached.filterMap (·.found.worktree)).map resolve →
      Dict.lookup s.records key = Dict.lookup freed.records key := by
    intro key hkey
    rcases hwritten key with ⟨hsame, -⟩ | ⟨b, hb, hbkey, -⟩
    · exact hsame
    · exact absurd (mem_writtenWorktrees.mpr ⟨b, hb, hbkey⟩) hkey
  constructor
  · intro h
    have hunwritten : ∀ key, key ∈ (reached.filterMap (·.found.worktree)).map resolve →
        Dict.lookup before.records key = none := by
      intro key hkey
      rw [← h, hundone, if_pos ⟨hkey, hown key hkey⟩]
    refine ⟨fun a ha w hw => hunwritten _ (mem_writtenWorktrees.mpr ⟨a, ha, by rw [hw]; rfl⟩),
      fun id hid c hc w hw => ?_⟩
    by_cases hkey : resolve w ∈ (reached.filterMap (·.found.worktree)).map resolve
    · rw [hunwritten _ hkey]
      rfl
    · by_contra hnot
      rw [Bool.not_eq_false] at hnot
      have hview := h (resolve w)
      rw [hundone, if_neg fun h => hkey h.1, hkept _ hkey, hfreed,
        if_pos ⟨mem_releasedWorktrees.mpr ⟨id, hid, c, hc, w, hw, rfl⟩, hnot⟩] at hview
      rw [← hview] at hnot
      cases hnot
  · rintro ⟨hunwritten, hundeleted⟩ key
    rw [hundone]
    by_cases hkey : key ∈ (reached.filterMap (·.found.worktree)).map resolve
    · rw [if_pos ⟨hkey, hown key hkey⟩]
      obtain ⟨a, ha, hakey⟩ := mem_writtenWorktrees.mp hkey
      obtain ⟨w, hw, rfl⟩ := Option.map_eq_some_iff.mp hakey
      exact (hunwritten a ha w hw).symm
    · rw [if_neg fun h => hkey h.1, hkept _ hkey, hfreed, if_neg]
      rintro ⟨hmem, hown⟩
      obtain ⟨id, hid, c, hc, w, hw, rfl⟩ := mem_releasedWorktrees.mp hmem
      rw [hundeleted id hid c hc w hw] at hown
      cases hown

theorem returned_iff {before freed s : AdmissionStores}
    (hlegal : Legal before formationId admitted released)
    (hcandidate : ∀ id, s.candidate id =
      (before.candidate id).map (moved formationId admitted released id))
    (hfreed : ∀ key, Dict.lookup freed.records key =
      if key ∈ (released.filterMap fun id => (before.candidate id).bind (·.worktree)).map resolve ∧
          OwnRecord formationId (Dict.lookup before.records key) = true then none
      else Dict.lookup before.records key)
    (hwritten : Written resolve formationId orchestratorRun freed s admitted) :
    ((∀ a ∈ admitted, AdmissionTook resolve formationId orchestratorRun s a) ∧
        ∀ id ∈ released, ReleaseTook resolve formationId before s admitted id) ↔
      Compatible resolve admitted released := by
  constructor
  · rintro ⟨hadmissions, -⟩
    refine ⟨fun a ha hid => ?_, fun a ha b hb w hw hbw => ?_⟩
    · obtain ⟨c, hc, hstate, -⟩ := (hadmissions a ha).1
      rw [hcandidate] at hc
      obtain ⟨c₀, -, rfl⟩ := Option.map_eq_some_iff.mp hc
      unfold moved at hstate
      rw [if_pos hid] at hstate
      exact Candidate.release_state _ hstate
    · obtain ⟨v, hv, hvw⟩ := Option.map_eq_some_iff.mp hbw
      obtain ⟨r, hr, hra⟩ := (hadmissions a ha).2 w hw
      obtain ⟨r', hr', hrb⟩ := (hadmissions b hb).2 v hv
      rw [hvw] at hr'
      obtain rfl := Option.some.inj (hr.symm.trans hr')
      exact ⟨hrb.2.1.symm.trans hra.2.1, hrb.2.2.1.symm.trans hra.2.2.1⟩
  · intro h
    refine ⟨fun a ha => ⟨?_, fun w hw => ?_⟩, fun id hid c hc hstate => ⟨?_, ?_⟩⟩
    · obtain ⟨c, hc, -⟩ := hlegal.admissible a ha
      refine ⟨c.grant formationId, ?_, rfl, rfl⟩
      have hin : a.found.candidateId ∈ admittedIds admitted := List.mem_map_of_mem ha
      rw [hcandidate, hc, Option.map_some, moved, if_neg (h.apart a ha), if_pos hin]
    · have hakey : a.found.worktree.map resolve = some (resolve w) := by
        rw [hw]
        rfl
      rcases hwritten (resolve w) with ⟨-, hnone⟩ | ⟨b, hb, hbkey, r, hr, hrecords⟩
      · exact absurd hakey (hnone a ha)
      · obtain ⟨hmember, hrevision⟩ := h.agree a ha b hb w hw hbkey
        exact ⟨r, hr, hrecords.1, hrecords.2.1.trans hmember,
          hrecords.2.2.1.trans hrevision, hrecords.2.2.2⟩
    · have hnot : id ∉ admittedIds admitted := by
        intro hin
        obtain ⟨a, ha, rfl⟩ := List.mem_map.mp hin
        exact h.apart a ha hid
      refine ⟨{ c with state := .active, admittedFormation := none }, ?_, rfl, rfl⟩
      rw [hcandidate, hc, Option.map_some, moved, if_pos hid, if_neg hnot, Candidate.release,
        if_pos hstate]
    · intro w hw r hr hown
      rcases hwritten (resolve w) with ⟨hsame, -⟩ | ⟨b, hb, hbkey, -⟩
      · rw [hsame, hfreed] at hr
        split at hr
        · cases hr
        · next hnot =>
            refine absurd ⟨mem_releasedWorktrees.mpr ⟨id, hid, c, hc, w, hw, rfl⟩, ?_⟩ hnot
            rw [hr]
            simpa [OwnRecord] using hown
      · exact ⟨b, hb, hbkey⟩

/-- `commit_admissions` is all or nothing exactly where, when the batch is legal, everything asked
for can stand together, or else what is undone was nothing before. -/
theorem commit_all_or_nothing (resolve : String → String) (formationId orchestratorRun : String)
    (fails : Nat → Bool) (before : AdmissionStores) (admitted : List AdmittedMember)
    (released : List String) :
    AllOrNothing resolve formationId orchestratorRun fails before admitted released ↔
      (Legal before formationId admitted released →
        (recordable resolve fails before formationId admitted 0 = admitted →
          Compatible resolve admitted released) ∧
        (recordable resolve fails before formationId admitted 0 ≠ admitted →
          Restorable resolve formationId before admitted released
            (recordable resolve fails before formationId admitted 0))) := by
  by_cases hlegal : Legal before formationId admitted released
  · rw [imp_iff_right hlegal]
    obtain ⟨registry, hregistry⟩ := setStates_moves.mpr hlegal
    have hcandidate := setStates_moves_eq hregistry
    obtain ⟨hfreedRegistry, hfreedRecords⟩ := release_worktrees formationId resolve
      (released.filterMap fun id => (before.candidate id).bind (·.worktree))
      { before with registry }
    generalize hfreed : (released.filterMap fun id =>
      (before.candidate id).bind (·.worktree)).foldl (·.releaseWorktreeMember resolve formationId)
      { before with registry } = freed at hfreedRegistry hfreedRecords
    have hfreedCandidate : ∀ id, freed.candidate id =
        (before.candidate id).map (moved formationId admitted released id) := by
      intro id
      rw [AdmissionStores.candidate, hfreedRegistry]
      exact hcandidate id
    have hwriting : Writing resolve formationId before freed [] :=
      ⟨nofun, fun key _ => held_freed hlegal hfreedCandidate hfreedRecords key⟩
    obtain ⟨fault, s, hall, hfault, hsRegistry, hsRecords⟩ :=
      recordAll_spec orchestratorRun fails admitted 0 freed []
        hwriting
    rw [List.nil_append] at hall
    generalize hreached : recordable resolve fails before formationId admitted 0 = reached at *
    have hsCandidate : ∀ id, s.candidate id =
        (before.candidate id).map (moved formationId admitted released id) := by
      intro id
      rw [AdmissionStores.candidate, hsRegistry]
      exact hfreedCandidate id
    unfold AllOrNothing commitAdmissions
    dsimp only
    rw [hregistry]
    dsimp only
    rw [hfreed, hall]
    cases fault with
    | none =>
        have heq : reached = admitted := hfault.mp rfl
        rw [imp_iff_right heq]
        refine (returned_iff hlegal hsCandidate hfreedRecords (heq ▸ hsRecords)).trans ?_
        exact ⟨fun h => ⟨h, fun hne => absurd heq hne⟩, fun h => h.1⟩
    | some fault =>
        have hne : reached ≠ admitted := fun heq => nomatch hfault.mpr heq
        have hsome : admitted.map (admissionOp formationId) ≠ [] := by
          intro hnil
          refine hne ?_
          rw [List.map_eq_nil_iff.mp hnil, ← hreached, List.map_eq_nil_iff.mp hnil]
          rfl
        obtain ⟨hundoneRegistry, -⟩ := release_worktrees formationId resolve
          (reached.filterMap (·.found.worktree)) s
        obtain ⟨registry', hrollback, hback⟩ := rollback_moves hsCandidate
        dsimp only
        rw [if_neg hsome, hundoneRegistry, hrollback]
        dsimp only
        have hstates := undone_states formationId before admitted released
        have hrecords := undone_records hfreedRecords hsRecords
        constructor
        · rintro ⟨hcandidates, hkeys⟩
          obtain ⟨hfree, hunheld⟩ := hstates.mp fun id => by
            rw [← hback]
            exact hcandidates id
          obtain ⟨hunwritten, hundeleted⟩ := hrecords.mp hkeys
          exact ⟨fun heq => absurd heq hne,
            fun _ => ⟨hfree, hunheld, hunwritten, hundeleted⟩⟩
        · rintro ⟨-, h⟩
          have hrestorable := h hne
          refine ⟨fun id => ?_, hrecords.mpr ⟨hrestorable.unwritten, hrestorable.undeleted⟩⟩
          have hview := hstates.mpr ⟨hrestorable.free, hrestorable.unheld⟩ id
          rw [← hback] at hview
          exact hview
  · refine iff_of_true ?_ fun h => absurd h hlegal
    unfold AllOrNothing commitAdmissions
    dsimp only
    cases hregistry : setStates before.registry (admitted.map (admissionOp formationId) ++
        released.map (releaseOp formationId)) with
    | ok registry => exact absurd (setStates_moves.mp ⟨registry, hregistry⟩) hlegal
    | error fault => exact ⟨fun _ => rfl, fun _ => rfl⟩

/-! ### An admission whose record cannot be written -/

def freeCandidate (id worktree : String) : Candidate := ⟨id, some worktree, .active, none⟩

/-- One worktree has a record of the formation, and one candidate is held. -/
def sampleStores : AdmissionStores where
  registry := some [("a", freeCandidate "a" "/a"), ("b", freeCandidate "b" "/b"),
    ("c", ⟨"c", some "/c", .admitted, some "f"⟩)]
  records := [("/a", ⟨"f", "old", 1, "run", 1⟩), ("/c", ⟨"f", "m", 2, "run", 1⟩)]

def sampleAdmissions : List AdmittedMember :=
  [⟨"m1", some 3, freeCandidate "a" "/a"⟩, ⟨"m2", some 3, freeCandidate "b" "/b"⟩]

/-- The second record fails: the released candidate stays free, its record is gone, and so is the
one the first admission wrote over. -/
theorem commit_leaves_half :
    (commitAdmissions id "f" "run" (fun k => k == 1) sampleStores sampleAdmissions ["c"]).1 =
        some .recordFailed ∧
      ((commitAdmissions id "f" "run" (fun k => k == 1) sampleStores sampleAdmissions
        ["c"]).2.candidate "c").map (·.state) = some .active ∧
      (commitAdmissions id "f" "run" (fun k => k == 1) sampleStores sampleAdmissions
        ["c"]).2.records = [] ∧
      ¬ AllOrNothing id "f" "run" (fun k => k == 1) sampleStores sampleAdmissions ["c"] := by
  refine ⟨by decide +kernel, by decide +kernel, by decide +kernel, fun h => ?_⟩
  have hunchanged : Unchanged sampleStores (commitAdmissions id "f" "run" (fun k => k == 1)
    sampleStores sampleAdmissions ["c"]).2 := h
  have hrecord := hunchanged.2 "/c"
  revert hrecord
  decide +kernel

end

end TrwMcp.Formation
