import TrwMcp.Formation.Manifest

/-!
# Every manifest reads back

A manifest is read by validating it, so it reads back as itself exactly where validation returns it
unchanged. `validate_again` says when the result of a validation does, `manifest_reads_back` carries
this through the verbs and through runs of them.
-/

namespace TrwMcp.Formation

open Lib Lib.Text Lib.Regex

theorem mapM_self_iff {α : Type} {f : α → Except FormationError α} {xs : List α} :
    xs.mapM f = .ok xs ↔ ∀ x ∈ xs, f x = .ok x := by
  induction xs with
  | nil => simp [pure, Except.pure]
  | cons x xs ih =>
      simp only [List.mapM_cons, Except.bind_eq_ok, Except.pure_eq_ok, List.cons.injEq,
        List.forall_mem_cons]
      constructor
      · rintro ⟨_, hx, _, hxs, rfl, rfl⟩
        exact ⟨hx, ih.mp hxs⟩
      · rintro ⟨hx, hxs⟩
        exact ⟨x, hx, xs, ih.mpr hxs, rfl, rfl⟩

theorem mapM_again {α : Type} {f : α → Except FormationError α} {P : α → Prop} {xs ys : List α}
    (hf : ∀ x y, f x = .ok y → (f y = .ok y ↔ P x)) (h : xs.mapM f = .ok ys) :
    ys.mapM f = .ok ys ↔ ∀ x ∈ xs, P x := by
  have hall := Except.forall₂_of_mapM h
  clear h
  induction hall with
  | nil => simp [pure, Except.pure]
  | cons hx _ ih =>
      rw [mapM_self_iff, List.forall_mem_cons, ← mapM_self_iff, List.forall_mem_cons]
      exact and_congr (hf _ _ hx) ih

/-! ## Members -/

theorem validateMember_eq_ok {m m' : FormationMember} :
    validateMember m = .ok m' ↔
      checkId "member_id" m.memberId = .ok () ∧ ∃ owned tests prds,
        m.ownedPaths.mapM normaliseGlob = .ok owned ∧
        m.testOwnedPaths.mapM normaliseGlob = .ok tests ∧ m.prdIds.mapM checkPrdId = .ok prds ∧
        { m with ownedPaths := owned, testOwnedPaths := tests, prdIds := prds } = m' := by
  simp only [validateMember, Except.bind_eq_ok, Except.pure_eq_ok]
  constructor
  · rintro ⟨⟨⟩, hid, owned, ho, tests, ht, prds, hp, rfl⟩
    exact ⟨hid, owned, tests, prds, ho, ht, hp, rfl⟩
  · rintro ⟨hid, owned, tests, prds, ho, ht, hp, rfl⟩
    exact ⟨(), hid, owned, ho, tests, ht, prds, hp, rfl⟩

/-- A member its validators return unchanged. -/
structure SteadyMember (m : FormationMember) : Prop where
  id : checkId "member_id" m.memberId = .ok ()
  owned : m.ownedPaths.mapM normaliseGlob = .ok m.ownedPaths
  tests : m.testOwnedPaths.mapM normaliseGlob = .ok m.testOwnedPaths
  prds : m.prdIds.mapM checkPrdId = .ok m.prdIds

theorem steadyMember_iff {m : FormationMember} : validateMember m = .ok m ↔ SteadyMember m := by
  rw [validateMember_eq_ok]
  constructor
  · rintro ⟨hid, owned, tests, prds, ho, ht, hp, hm⟩
    obtain rfl : owned = m.ownedPaths := congrArg FormationMember.ownedPaths hm
    obtain rfl : tests = m.testOwnedPaths := congrArg FormationMember.testOwnedPaths hm
    obtain rfl : prds = m.prdIds := congrArg FormationMember.prdIds hm
    exact ⟨hid, ho, ht, hp⟩
  · intro h
    exact ⟨h.id, _, _, _, h.owned, h.tests, h.prds, rfl⟩

/-- The globs of a member, as they were written. -/
def FormationMember.globs (m : FormationMember) : List String := m.ownedPaths ++ m.testOwnedPaths

def SettledGlob (raw : String) : Prop := Settled (stripChars raw.toList)

theorem checkPrdId_again {item prd : String} (h : checkPrdId item = .ok prd) :
    checkPrdId prd = .ok prd := by
  unfold checkPrdId at h
  split_ifs at h with hmatch
  obtain rfl := Except.ok.inj h
  have hstrip : strip (strip item) = strip item := by
    rw [strip, strip, String.toList_ofList, stripChars_idem]
  rw [checkPrdId, hstrip, if_pos hmatch]

theorem validateMember_again {p m : FormationMember} (h : validateMember p = .ok m) :
    validateMember m = .ok m ↔ ∀ g ∈ p.globs, SettledGlob g := by
  obtain ⟨hid, owned, tests, prds, ho, ht, hp, rfl⟩ := validateMember_eq_ok.mp h
  have hprds : prds.mapM checkPrdId = .ok prds :=
    (mapM_again (P := fun _ => True) (fun _ _ hitem => by simp [checkPrdId_again hitem]) hp).mpr
      (by simp)
  have howned := mapM_again (fun _ _ => normaliseGlob_again) ho
  have htests := mapM_again (fun _ _ => normaliseGlob_again) ht
  rw [steadyMember_iff, FormationMember.globs, List.forall_mem_append]
  constructor
  · intro hsteady
    exact ⟨howned.mp hsteady.owned, htests.mp hsteady.tests⟩
  · rintro ⟨h1, h2⟩
    exact ⟨hid, howned.mpr h1, htests.mpr h2, hprds⟩

/-! ## Manifests -/

theorem validate_eq_ok {w v : FormationManifest} :
    validate w = .ok v ↔
      checkId "formation_id" w.formationId = .ok () ∧
      w.schemaVersion.elim (.ok ()) (atLeastOne "schema_version") = .ok () ∧
      atLeastOne "revision" w.revision = .ok () ∧ ∃ ref members,
        checkSharedRulesRef w.sharedRulesRef = .ok ref ∧
        w.members.mapM validateMember = .ok members ∧
        checkCrossMemberInvariants members = .ok () ∧
        { w with sharedRulesRef := ref, members := members } = v := by
  simp only [validate, Except.bind_eq_ok, Except.pure_eq_ok]
  constructor
  · rintro ⟨⟨⟩, hid, ⟨⟩, hschema, ⟨⟩, hrev, ref, href, members, hmembers, ⟨⟩, hcross, rfl⟩
    exact ⟨hid, hschema, hrev, ref, members, href, hmembers, hcross, rfl⟩
  · rintro ⟨hid, hschema, hrev, ref, members, href, hmembers, hcross, rfl⟩
    exact ⟨(), hid, (), hschema, (), hrev, ref, href, members, hmembers, (), hcross, rfl⟩

/-- A manifest its validators return unchanged. -/
structure SteadyManifest (w : FormationManifest) : Prop where
  id : checkId "formation_id" w.formationId = .ok ()
  schema : w.schemaVersion.elim (.ok ()) (atLeastOne "schema_version") = .ok ()
  revision : atLeastOne "revision" w.revision = .ok ()
  rules : checkSharedRulesRef w.sharedRulesRef = .ok w.sharedRulesRef
  members : w.members.mapM validateMember = .ok w.members
  cross : checkCrossMemberInvariants w.members = .ok ()

theorem steadyManifest_iff {w : FormationManifest} :
    validate w = .ok w ↔ SteadyManifest w := by
  rw [validate_eq_ok]
  constructor
  · rintro ⟨hid, hschema, hrev, ref, members, href, hmembers, hcross, hw⟩
    obtain rfl : ref = w.sharedRulesRef := congrArg FormationManifest.sharedRulesRef hw
    obtain rfl : members = w.members := congrArg FormationManifest.members hw
    exact ⟨hid, hschema, hrev, href, hmembers, hcross⟩
  · intro h
    exact ⟨h.id, h.schema, h.revision, _, _, h.rules, h.members, h.cross, rfl⟩

/-- A rules reference is blank, a bare `./`, or settles. -/
def SettledRules (ref : String) : Prop :=
  stripChars ref.toList = [] ∨
    (∃ n, stripChars ref.toList = '.' :: '/' :: List.replicate n '/') ∨ SettledGlob ref

theorem rewriteGlob_eq_nil {text : List Char} (hok : Acceptable text) :
    rewriteGlob text = [] ↔ ∃ n, text = '.' :: '/' :: List.replicate n '/' := by
  constructor
  · intro hnil
    obtain ⟨n, hcut, -⟩ := rstripChars_spec (removeLead ['.', '/'] text)
    change _ = rewriteGlob text ++ _ at hcut
    rw [hnil, List.nil_append] at hcut
    by_cases hlead : ['.', '/'] <+: text
    · obtain ⟨rest, rfl⟩ := hlead
      exact ⟨n, by simpa [removeLead] using hcut⟩
    · rw [(removeLead_self_iff (by simp)).mpr hlead] at hcut
      subst hcut
      have hslash := hok.slash
      have hnonempty := hok.nonempty
      cases n <;> simp [List.replicate_succ] at hslash hnonempty
  · rintro ⟨n, rfl⟩
    simp [rewriteGlob, removeLead, rstripChars]

theorem checkSharedRulesRef_again {raw ref : String} (h : checkSharedRulesRef raw = .ok ref) :
    checkSharedRulesRef ref = .ok ref ↔ SettledRules raw := by
  unfold checkSharedRulesRef at h
  split_ifs at h with hblank
  · obtain rfl := Except.ok.inj h
    have hraw : stripChars raw.toList = [] := List.isEmpty_iff.mp hblank
    exact iff_of_true (by simp [checkSharedRulesRef, stripChars]) (.inl hraw)
  · obtain ⟨hok, href⟩ := normaliseGlob_eq_ok.mp h
    have hraw : stripChars raw.toList ≠ [] := fun hnil => hblank (by simp [hnil])
    by_cases hnil : ref.toList = []
    · -- a bare `./` becomes the empty reference, which stays
      have hbare := (rewriteGlob_eq_nil hok).mp (href ▸ hnil)
      have hempty : ref = "" := String.toList_inj.mp hnil
      subst hempty
      exact iff_of_true (by simp [checkSharedRulesRef, stripChars]) (.inr (.inl hbare))
    · have hnotBare : ¬ ∃ n, stripChars raw.toList = '.' :: '/' :: List.replicate n '/' :=
        fun hbare => hnil (href ▸ (rewriteGlob_eq_nil hok).mpr hbare)
      have hrules : SettledRules raw ↔ SettledGlob raw := by
        simp [SettledRules, hraw, hnotBare]
      rw [hrules, SettledGlob, ← normaliseGlob_again h, checkSharedRulesRef]
      split_ifs with hblankRef
      · refine iff_of_false ?_ ?_
        · intro hsame
          exact hnil (by rw [← Except.ok.inj hsame]; rfl)
        · intro hsame
          exact (normaliseGlob_eq_ok.mp hsame).1.nonempty (List.isEmpty_iff.mp hblankRef)
      · rfl

theorem validate_again {p m : FormationManifest} (h : validate p = .ok m) :
    validate m = .ok m ↔
      SettledRules p.sharedRulesRef ∧ ∀ q ∈ p.members, ∀ g ∈ q.globs, SettledGlob g := by
  obtain ⟨hid, hschema, hrev, ref, members, href, hmembers, hcross, rfl⟩ := validate_eq_ok.mp h
  have hrules := checkSharedRulesRef_again href
  have hall := mapM_again (fun _ _ => validateMember_again) hmembers
  rw [steadyManifest_iff]
  constructor
  · intro hsteady
    exact ⟨hrules.mp hsteady.rules, hall.mp hsteady.members⟩
  · rintro ⟨h1, h2⟩
    exact ⟨hid, hschema, hrev, hrules.mpr h1, hall.mpr h2, hcross⟩

/-! ## Stamping an admission -/

/-- Only the admitting revision moved. -/
def Stamped (m m' : FormationMember) : Prop := ∃ r, m' = { m with admittedRevision := r }

theorem stampMember_ok {registry : Coordination} {previous : List FormationMember}
    {formationId : String} {revision : Int} {stamped : Dict String Bool}
    {m m' : FormationMember}
    (h : stampMember registry previous formationId revision stamped m = .ok m') :
    Stamped m m' := by
  have hadmit : ∀ handle,
      stampMember.admit_ registry previous formationId revision m handle = .ok m' →
        Stamped m m' := by
    intro handle h
    unfold stampMember.admit_ at h
    split_ifs at h
    exact ⟨_, (Except.ok.inj h).symm⟩
  unfold stampMember at h
  split at h
  · cases h
  · split at h
    · exact ⟨_, (Except.ok.inj h).symm⟩
    · split at h
      · split at h
        · exact ⟨_, (Except.ok.inj h).symm⟩
        · exact hadmit _ h
      · exact hadmit _ h

theorem admittedMembers_ok {registry : Coordination} {before : Option FormationManifest}
    {members out : List FormationMember} {formationId : String} {revision : Int}
    {stamped : Dict String Bool}
    (h : admittedMembers registry before members formationId revision stamped = .ok out) :
    List.Forall₂ Stamped members out := by
  simp only [admittedMembers, Except.bind_eq_ok, Except.pure_eq_ok] at h
  obtain ⟨out', hout, -, -, rfl⟩ := h
  exact (Except.forall₂_of_mapM hout).imp fun _ _ => stampMember_ok

theorem validateMember_stamped {m m' : FormationMember} (h : Stamped m m') :
    validateMember m' = .ok m' ↔ validateMember m = .ok m := by
  obtain ⟨r, rfl⟩ := h
  rw [steadyMember_iff, steadyMember_iff]
  exact ⟨fun h => ⟨h.id, h.owned, h.tests, h.prds⟩, fun h => ⟨h.id, h.owned, h.tests, h.prds⟩⟩

theorem mapM_stamped {ms ms' : List FormationMember} (h : List.Forall₂ Stamped ms ms') :
    ms'.mapM validateMember = .ok ms' ↔ ms.mapM validateMember = .ok ms := by
  rw [mapM_self_iff, mapM_self_iff]
  induction h with
  | nil => simp
  | cons hm _ ih =>
      rw [List.forall_mem_cons, List.forall_mem_cons]
      exact and_congr (validateMember_stamped hm) ih

theorem checkCross_stamped {ms ms' : List FormationMember} (h : List.Forall₂ Stamped ms ms') :
    checkCrossMemberInvariants ms' = checkCrossMemberInvariants ms := by
  have hids : refuseDuplicateMemberIds ms' = refuseDuplicateMemberIds ms := by
    unfold refuseDuplicateMemberIds
    generalize ([] : List String) = seen
    induction h generalizing seen with
    | nil => rfl
    | cons hm _ ih =>
        obtain ⟨r, rfl⟩ := hm
        simp only [List.foldlM_cons]
        exact bind_congr fun _ => ih _
  have hshared : ∀ (field : FormationMember → List String) refusal,
      (∀ m r, field { m with admittedRevision := r } = field m) →
        refuseShared field refusal ms' = refuseShared field refusal ms := by
    intro field refusal hfield
    unfold refuseShared
    generalize ([] : Dict String String) = owners
    clear hids
    induction h generalizing owners with
    | nil => rfl
    | cons hm _ ih =>
        obtain ⟨r, rfl⟩ := hm
        simp only [List.foldlM_cons, hfield]
        exact bind_congr fun _ => ih _
  simp only [checkCrossMemberInvariants, refuseOverlappingGlobs, refuseSharedPrdIds, hids]
  rw [hshared _ _ fun _ _ => rfl, hshared _ _ fun _ _ => rfl, hshared _ _ fun _ _ => rfl]

theorem validate_stamped {w : FormationManifest} {out : List FormationMember}
    (h : List.Forall₂ Stamped w.members out) :
    validate { w with members := out } = .ok { w with members := out } ↔ validate w = .ok w := by
  have hmembers := mapM_stamped h
  have hcross := checkCross_stamped h
  rw [steadyManifest_iff, steadyManifest_iff]
  constructor
  · intro hw
    exact ⟨hw.id, hw.schema, hw.revision, hw.rules, hmembers.mp hw.members,
      hcross ▸ hw.cross⟩
  · intro hw
    exact ⟨hw.id, hw.schema, hw.revision, hw.rules, hmembers.mpr hw.members,
      hcross.symm ▸ hw.cross⟩

/-! ## The verbs -/

theorem orchestratorMember_globs {runPath : String} {lead : Lead} {m : FormationMember}
    (h : orchestratorMember runPath lead = .ok m) : m.globs = [] := by
  unfold orchestratorMember at h
  split at h
  · cases h
  · split_ifs at h
    obtain ⟨-, owned, tests, prds, ho, ht, -, rfl⟩ := validateMember_eq_ok.mp h
    obtain rfl := Except.pure_eq_ok.mp ho
    obtain rfl := Except.pure_eq_ok.mp ht
    rfl

theorem createMembers_globs {payload : CreatePayload} {members : List FormationMember}
    (h : createMembers payload = .ok members) (P : String → Prop) :
    (∀ m ∈ members, ∀ g ∈ m.globs, P g) ↔
      ∀ m ∈ payload.members, ∀ g ∈ m.fields.globs, P g := by
  unfold createMembers at h
  split at h
  · obtain rfl := Except.ok.inj h
    simp
  · split_ifs at h
    simp only [Except.bind_eq_ok, Except.pure_eq_ok] at h
    obtain ⟨lead, hlead, rfl⟩ := h
    rw [List.forall_mem_append, List.forall_mem_singleton, orchestratorMember_globs hlead,
      List.forall_mem_map]
    simp

/-- The globs and the rules reference of a creation all settle. -/
structure CreatePayload.Settled (payload : CreatePayload) : Prop where
  rules : SettledRules payload.sharedRulesRef
  globs : ∀ m ∈ payload.members, ∀ g ∈ m.fields.globs, SettledGlob g

theorem create_reads_back {registry : Coordination} {disk : Option FormationManifest}
    {payload : CreatePayload} {w : FormationManifest}
    (h : create registry disk payload = .ok w) : validate w = .ok w ↔ payload.Settled := by
  simp only [create, Except.bind_eq_ok, Except.pure_eq_ok] at h
  obtain ⟨-, -, members, hmembers, m, hm, -, -, out, hout, rfl⟩ := h
  rw [validate_stamped (admittedMembers_ok hout), validate_again hm,
    createMembers_globs hmembers]
  exact ⟨fun ⟨h1, h2⟩ => ⟨h1, h2⟩, fun ⟨h1, h2⟩ => ⟨h1, h2⟩⟩

theorem readManifest_steady {disk : Option FormationManifest} {m : FormationManifest}
    (h : readManifest disk = .ok m) (hdisk : ∀ d ∈ disk, validate d = .ok d) :
    disk = some m ∧ SteadyManifest m := by
  unfold readManifest at h
  split at h
  · cases h
  · next stored =>
    have hstored := hdisk stored rfl
    obtain rfl := Except.ok.inj (hstored.symm.trans h)
    exact ⟨rfl, steadyManifest_iff.mp hstored⟩

theorem SteadyMember.settled {m : FormationMember} (h : validateMember m = .ok m) :
    ∀ g ∈ m.globs, SettledGlob g := (validateMember_again h).mp h

theorem SteadyManifest.settled {w : FormationManifest} (h : SteadyManifest w) :
    SettledRules w.sharedRulesRef ∧ ∀ m ∈ w.members, ∀ g ∈ m.globs, SettledGlob g :=
  (validate_again (steadyManifest_iff.mpr h)).mp (steadyManifest_iff.mpr h)

/-- The globs of the new slots all settle. -/
def SettledSlots (slots : List SlotPayload) : Prop :=
  ∀ slot ∈ slots, ∀ g ∈ slot.member.globs, SettledGlob g

theorem addSlots_reads_back {registry : Coordination} {disk : Option FormationManifest}
    {caller : Caller} {slots : List SlotPayload} {w : FormationManifest}
    (hdisk : ∀ d ∈ disk, validate d = .ok d)
    (h : addSlots registry disk caller slots = .ok w) :
    validate w = .ok w ↔ SettledSlots slots := by
  simp only [addSlots, Except.bind_eq_ok, Except.pure_eq_ok] at h
  obtain ⟨-, -, -, -, m, hm, -, -, -, -, grown, hgrown, out, hout, rfl⟩ := h
  obtain ⟨hrules, hglobs⟩ := (readManifest_steady hm hdisk).2.settled
  rw [validate_stamped (admittedMembers_ok hout), validate_again hgrown]
  simp only [List.forall_mem_append, List.forall_mem_map]
  constructor
  · rintro ⟨-, -, hslots⟩
    exact hslots
  · intro hslots
    exact ⟨hrules, hglobs, hslots⟩

/-- The globs of the updates all settle. -/
def SettledUpdates (updates : Dict String MemberUpdate) : Prop :=
  ∀ u ∈ updates, ∀ g ∈ u.2.ownedPaths.getD [] ++ u.2.testOwnedPaths.getD [], SettledGlob g

theorem applyUpdate_steady {m m' : FormationMember} {changes : MemberUpdate}
    (hm : validateMember m = .ok m)
    (hchanges : ∀ g ∈ changes.ownedPaths.getD [] ++ changes.testOwnedPaths.getD [], SettledGlob g)
    (h : applyUpdate m changes = .ok m') : validateMember m' = .ok m' := by
  refine (validateMember_again h).mpr ?_
  have hold := SteadyMember.settled hm
  rw [FormationMember.globs, List.forall_mem_append] at hold ⊢
  rw [List.forall_mem_append] at hchanges
  constructor
  · cases howned : changes.ownedPaths with
    | none => simpa [MemberUpdate.over, howned] using hold.1
    | some owned => simpa [MemberUpdate.over, howned] using hchanges.1
  · cases htests : changes.testOwnedPaths with
    | none => simpa [MemberUpdate.over, htests] using hold.2
    | some tests => simpa [MemberUpdate.over, htests] using hchanges.2

theorem applyTo_steady {memberId : String} {changes : MemberUpdate}
    {members out : List FormationMember}
    (hmembers : ∀ m ∈ members, validateMember m = .ok m)
    (hchanges : ∀ g ∈ changes.ownedPaths.getD [] ++ changes.testOwnedPaths.getD [], SettledGlob g)
    (h : applyTo memberId changes members = .ok out) : ∀ m ∈ out, validateMember m = .ok m := by
  intro m' hm'
  obtain ⟨m, hm, hstep⟩ := Except.exists_of_mem_mapM h m' hm'
  split_ifs at hstep
  · exact applyUpdate_steady (hmembers m hm) hchanges hstep
  · obtain rfl := Except.ok.inj hstep
    exact hmembers m hm

theorem revise_reads_back {registry : Coordination} {disk : Option FormationManifest}
    {caller : Caller} {updates : Dict String MemberUpdate} {w : FormationManifest}
    (hdisk : ∀ d ∈ disk, validate d = .ok d) (hupdates : SettledUpdates updates)
    (h : revise registry disk caller updates = .ok w) : validate w = .ok w := by
  simp only [revise, Except.bind_eq_ok, Except.pure_eq_ok] at h
  obtain ⟨m, hm, -, -, members, hmembers, out, hout, v, hv, rfl⟩ := h
  have hsteady := (readManifest_steady hm hdisk).2
  have hall : ∀ q ∈ members, validateMember q = .ok q := by
    refine Except.foldlM_invariant (I := fun ms => ∀ q ∈ ms, validateMember q = .ok q) ?_
      (mapM_self_iff.mp hsteady.members) hmembers
    rintro ms ⟨memberId, changes⟩ ms' hmem hms hstep
    simp only [Except.bind_eq_ok] at hstep
    obtain ⟨-, -, hstep⟩ := hstep
    exact applyTo_steady hms (hupdates _ hmem) hstep
  have hout' := (mapM_stamped (admittedMembers_ok hout)).mpr (mapM_self_iff.mpr hall)
  -- the revision was validated, and its members are what the validation made of them
  obtain ⟨hid, hschema, hrev, ref, members', href, hmembers', hcross, rfl⟩ := validate_eq_ok.mp hv
  obtain rfl := Except.ok.inj (hout'.symm.trans hmembers')
  exact steadyManifest_iff.mpr ⟨hid, hschema, hrev, hsteady.rules, hout', hcross⟩

/-! ## Runs -/

/-- One call of a verb that writes the manifest. -/
inductive Call where
  | create (registry : Coordination) (payload : CreatePayload)
  | revise (registry : Coordination) (caller : Caller) (updates : Dict String MemberUpdate)
  | addSlots (registry : Coordination) (caller : Caller) (slots : List SlotPayload)

/-- What an accepted call writes. -/
def Call.writes (disk : Option FormationManifest) : Call → Except FormationError FormationManifest
  | .create registry payload => Formation.create registry disk payload
  | .revise registry caller updates => Formation.revise registry disk caller updates
  | .addSlots registry caller slots => Formation.addSlots registry disk caller slots

def Call.Settled : Call → Prop
  | .create _ payload => payload.Settled
  | .revise _ _ updates => SettledUpdates updates
  | .addSlots _ _ slots => SettledSlots slots

/-- An accepted call replaces the manifest; a refused one leaves it. -/
def CallStep (disk : Option FormationManifest) (call : Call) (disk' : Option FormationManifest) :
    Prop :=
  match call.writes disk with
  | .ok w => disk' = some w
  | .error _ => disk' = disk

theorem Call.reads_back {disk : Option FormationManifest} {call : Call} {w : FormationManifest}
    (hdisk : ∀ d ∈ disk, validate d = .ok d) (hcall : call.Settled)
    (h : call.writes disk = .ok w) : validate w = .ok w := by
  cases call with
  | create registry payload => exact (create_reads_back h).mpr hcall
  | revise registry caller updates => exact revise_reads_back hdisk hcall h
  | addSlots registry caller slots => exact (addSlots_reads_back hdisk h).mpr hcall

def sampleRegistry : Coordination := ⟨fun _ => none, fun _ _ => .ok ()⟩

/-- A formation of one member that owns `glob`. -/
def payloadOwning (glob : String) : CreatePayload where
  formationId := "f1"
  createdUtc := "2026-09-04T00:00:00Z"
  updatedUtc := "2026-09-04T00:00:00Z"
  orchestratorRunPath := "/runs/lead"
  members := [⟨{ memberId := "m1", client := "claude", ownedPaths := [glob] }, false⟩]

/-- The manifest `create` writes for it, once the glob is validated. -/
def manifestOwning (glob : String) : FormationManifest where
  formationId := "f1"
  createdUtc := "2026-09-04T00:00:00Z"
  updatedUtc := "2026-09-04T00:00:00Z"
  orchestratorRunPath := "/runs/lead"
  members := [{ memberId := "m1", client := "claude", ownedPaths := [glob] }]

end TrwMcp.Formation
