import TrwMcp.Scheduling.Registry

/-!
# The slots over whole runs

A run is any sequence of writer calls, each under the lock of the ledger, with the PRD files
changing between them. One call moves the slots of one PRD, and the gate counts the others; so the
limits are kept as long as the gate is asked and no PRD comes back with a slot it still has.
-/

namespace TrwMcp.Scheduling

open Handoff Intent Lib

section

variable (lib : Stdlib)

/-- The part of a call before the append. -/
def WriterCall.gate (prds : List PrdFile) (actions : List SchedulingAction) :
    WriterCall → Except Failure Unit
  | .setExecutionState change =>
      if change.state.isWip then registryOf lib actions prds {} >>= change.admit else .ok ()
  | _ => .ok ()

/-- What a call appends to the actions the ledger holds. -/
def WriterCall.takes (prds : List PrdFile) (actions : List SchedulingAction) (call : WriterCall) :
    Except Failure SchedulingAction := do
  call.gate lib prds actions
  if stripText call.request.authorizationReceipt = "" then .error .noReceipt
  else extend lib actions call.request

/-- The ledger, by the actions it holds, and the PRD files. -/
structure World where
  actions : List SchedulingAction
  prds : List PrdFile

inductive Event where
  | call (call : WriterCall)
  | prds (files : List PrdFile)

def World.next (w : World) : Event → World
  | .call call =>
      match call.takes lib w.prds w.actions with
      | .ok action => { w with actions := w.actions ++ [action] }
      | .error _ => w
  | .prds files => { w with prds := files }

end

section

variable {lib : Stdlib}

theorem WriterCall.takes_eq {prds : List PrdFile} {actions : List SchedulingAction}
    {call : WriterCall} {action : SchedulingAction} (hgate : call.gate lib prds actions = .ok ())
    (hreceipt : stripText call.request.authorizationReceipt ≠ "")
    (hextend : extend lib actions call.request = .ok action) :
    call.takes lib prds actions = .ok action := by
  rw [takes, hgate]
  exact (if_neg hreceipt).trans hextend

theorem WriterCall.takes_ok {prds : List PrdFile} {actions : List SchedulingAction}
    {call : WriterCall} {action : SchedulingAction}
    (h : call.takes lib prds actions = .ok action) :
    call.gate lib prds actions = .ok () ∧ action = call.request.action lib actions := by
  obtain ⟨⟨⟩, hgate, hrest⟩ := Lib.Except.bind_eq_ok.mp h
  refine ⟨hgate, ?_⟩
  split at hrest
  · cases hrest
  · exact extend_ok hrest

/-- A call on the files a run of the writer has reached appends what it takes from the actions
written. -/
theorem WriterCall.takes_of_run (hfree : Function.Injective (actionDigest lib))
    {committed : List SchedulingAction} {store store' : Store} {prds : List PrdFile}
    {call : WriterCall} {action : SchedulingAction} (hwritten : Written lib committed store)
    (h : call.run lib prds store = (.ok action, store')) :
    call.takes lib prds committed = .ok action ∧ Written lib (committed ++ [action]) store' := by
  refine ⟨?_, hwritten.step hfree (call.appends h)⟩
  have happended : ∀ request : Request, appendLocked lib request store = (.ok action, store') →
      stripText request.authorizationReceipt ≠ "" ∧ readLedger lib store = .ok committed ∧
        extend lib committed request = .ok action := by
    intro request happend
    obtain ⟨actions, hread, hextend, -⟩ := appendLocked_ok happend
    obtain ⟨-, rfl⟩ := (hwritten.read_iff hfree).mp hread
    refine ⟨fun hblank => ?_, hread, hextend⟩
    unfold appendLocked at happend
    rw [if_pos hblank] at happend
    exact Eff.raise_ne_ok happend
  cases call with
  | advanceEvaluationEpoch receipt actor actionId today =>
      obtain ⟨hreceipt, -, hextend⟩ := happended _ h
      exact WriterCall.takes_eq rfl hreceipt hextend
  | renew prdId receipt actor actionId today =>
      obtain ⟨hreceipt, -, hextend⟩ := happended _ h
      exact WriterCall.takes_eq rfl hreceipt hextend
  | setExecutionState change =>
      rw [WriterCall.run, Scheduling.setExecutionState] at h
      by_cases hwip : change.state.isWip = true
      · rw [if_pos hwip, Eff.read_bind] at h
        cases hgate : buildRegistry lib prds store {} >>= change.admit with
        | error raised =>
            rw [hgate] at h
            exact absurd h Eff.raise_ne_ok
        | ok u =>
            rw [hgate] at h
            obtain ⟨hreceipt, hread, hextend⟩ := happended _ h
            rw [buildRegistry, hread] at hgate
            exact WriterCall.takes_eq ((if_pos hwip).trans hgate) hreceipt hextend
      · rw [if_neg hwip] at h
        obtain ⟨hreceipt, -, hextend⟩ := happended _ h
        exact WriterCall.takes_eq (if_neg hwip) hreceipt hextend

/-! ## One entry through the ledger -/

/-- What one action makes of an entry. -/
def RegistryEntry.track (entry : RegistryEntry) (action : SchedulingAction) : RegistryEntry :=
  if (action.payload.get "prd_id").getD "" = entry.prdId then
    match action.kind with
    | .setExecutionState =>
        match (action.payload.get "state").bind ExecutionState.ofText with
        | some state => action.apply state entry
        | none => entry
    | .renew => { entry with renewalDate := action.effectiveUtcDate }
    | .advanceEvaluationEpoch => entry
  else entry

/-- What the ledger makes of an entry. -/
def RegistryEntry.tracked (actions : List SchedulingAction) (entry : RegistryEntry) :
    RegistryEntry :=
  actions.foldl RegistryEntry.track entry

@[simp] theorem RegistryEntry.track_prdId (entry : RegistryEntry) (action : SchedulingAction) :
    (entry.track action).prdId = entry.prdId := by
  unfold track
  split
  · split
    · split <;> rfl
    · rfl
    · rfl
  · rfl

@[simp] theorem RegistryEntry.tracked_prdId (actions : List SchedulingAction)
    (entry : RegistryEntry) : (entry.tracked actions).prdId = entry.prdId := by
  induction actions generalizing entry with
  | nil => rfl
  | cons a actions ih => exact (ih (entry.track a)).trans (entry.track_prdId a)

/-- Entries the gate cannot tell apart. -/
structure RegistryEntry.Alike (e e' : RegistryEntry) : Prop where
  prdId : e.prdId = e'.prdId
  priority : e.priority = e'.priority
  owner : e.owner = e'.owner
  state : e.executionState = e'.executionState

theorem RegistryEntry.Alike.track {e e' : RegistryEntry} (h : e.Alike e')
    (action : SchedulingAction) : (e.track action).Alike (e'.track action) := by
  unfold RegistryEntry.track
  by_cases hid : (action.payload.get "prd_id").getD "" = e.prdId
  · rw [if_pos hid, if_pos (hid.trans h.prdId)]
    split
    · split
      · exact ⟨h.prdId, h.priority, by simp [SchedulingAction.apply, h.owner], rfl⟩
      · exact h
    · exact ⟨h.prdId, h.priority, h.owner, h.state⟩
    · exact h
  · rw [if_neg hid, if_neg fun h' => hid (h'.trans h.prdId.symm)]
    exact h

theorem RegistryEntry.Alike.tracked {e e' : RegistryEntry} (h : e.Alike e')
    (actions : List SchedulingAction) : (e.tracked actions).Alike (e'.tracked actions) := by
  induction actions generalizing e e' with
  | nil => exact h
  | cons a actions ih => exact ih (h.track a)

/-! ## The registry, entry by entry -/

/-- No two entries share an id. -/
def Unique (entries : List RegistryEntry) : Prop := (entries.map (·.prdId)).Nodup

/-- `f` where the id is `prdId`. -/
def atId (prdId : String) (f : RegistryEntry → RegistryEntry) (e : RegistryEntry) : RegistryEntry :=
  if e.prdId = prdId then f e else e

theorem map_atId_of_not_mem {f : RegistryEntry → RegistryEntry} {prdId : String}
    {entries : List RegistryEntry} (h : prdId ∉ entries.map (·.prdId)) :
    entries.map (atId prdId f) = entries := by
  refine (List.map_congr_left fun e he => ?_).trans (List.map_id entries)
  exact if_neg fun heq => h (List.mem_map.mpr ⟨e, he, heq⟩)

theorem updateLast_eq {f : RegistryEntry → RegistryEntry} {prdId : String}
    {entries : List RegistryEntry} (h : Unique entries) :
    updateLast f prdId entries = entries.map (atId prdId f) := by
  induction entries with
  | nil => rfl
  | cons e entries ih =>
      obtain ⟨hnew, hrest⟩ := List.nodup_cons.mp h
      rw [updateLast, List.map_cons]
      split
      · next hmem =>
          have hne : e.prdId ≠ prdId := by
            rintro rfl
            exact hnew hmem
          rw [ih hrest, atId, if_neg hne]
      · next hmem =>
          rw [map_atId_of_not_mem hmem, atId]
          split <;> rfl

theorem updateFirst_eq {f : RegistryEntry → RegistryEntry} {prdId : String}
    {entries : List RegistryEntry} (h : Unique entries) :
    updateFirst f prdId entries = entries.map (atId prdId f) := by
  induction entries with
  | nil => rfl
  | cons e entries ih =>
      obtain ⟨hnew, hrest⟩ := List.nodup_cons.mp h
      rw [updateFirst, List.map_cons, atId]
      split
      · next heq =>
          have hmem : prdId ∉ entries.map (·.prdId) := by
            rw [← heq]
            exact hnew
          rw [map_atId_of_not_mem hmem]
      · rw [ih hrest]

theorem unique_map {f : RegistryEntry → RegistryEntry} (hf : ∀ e, (f e).prdId = e.prdId)
    {entries : List RegistryEntry} (h : Unique entries) : Unique (entries.map f) := by
  rw [Unique, List.map_map]
  exact (List.map_congr_left fun e _ => hf e).symm ▸ h

theorem reconcileAction_ok {entries entries' : List RegistryEntry} {action : SchedulingAction}
    (hunique : Unique entries) (h : reconcileAction entries action = .ok entries') :
    entries' = entries.map (·.track action) := by
  have hat : ∀ f : RegistryEntry → RegistryEntry,
      (∀ e, (action.payload.get "prd_id").getD "" = e.prdId → e.track action = f e) →
      entries.map (atId ((action.payload.get "prd_id").getD "") f) =
        entries.map (·.track action) := by
    intro f hf
    refine List.map_congr_left fun e _ => ?_
    rw [atId]
    split
    · next heq => exact (hf e heq.symm).symm
    · next hne => exact (if_neg fun heq => hne heq.symm).symm
  unfold reconcileAction at h
  simp only at h
  split at h
  · next hmem =>
      obtain rfl := Except.ok.inj h
      refine ((List.map_congr_left fun e he => ?_).trans (List.map_id entries)).symm
      exact if_neg fun heq => hmem (List.mem_map.mpr ⟨e, he, heq.symm⟩)
  · split at h
    · next hkind =>
        split at h
        · next state hstate =>
            rw [← Except.ok.inj h, updateLast_eq hunique]
            refine hat _ fun e he => ?_
            rw [RegistryEntry.track, if_pos he, hkind]
            simp only [hstate]
        · cases h
    · next hkind =>
        rw [← Except.ok.inj h, updateLast_eq hunique]
        refine hat _ fun e he => ?_
        rw [RegistryEntry.track, if_pos he, hkind]
    · next hkind =>
        obtain rfl := Except.ok.inj h
        refine ((List.map_congr_left fun e he => ?_).trans (List.map_id entries)).symm
        rw [RegistryEntry.track, hkind]
        split <;> rfl

theorem reconcile_ok {entries entries' : List RegistryEntry} {actions : List SchedulingAction}
    (hunique : Unique entries) (h : reconcile entries actions = .ok entries') :
    entries' = entries.map (·.tracked actions) := by
  induction actions generalizing entries with
  | nil => exact (Except.ok.inj h).symm.trans (List.map_id entries).symm
  | cons a actions ih =>
      rw [reconcile, List.foldlM_cons] at h
      obtain ⟨next, hnext, hrest⟩ := Lib.Except.bind_eq_ok.mp h
      obtain rfl := reconcileAction_ok hunique hnext
      rw [ih (unique_map (fun e => e.track_prdId a) hunique) hrest, List.map_map]
      rfl

theorem registryOf_ok {actions : List SchedulingAction} {prds : List PrdFile}
    {limits : PrdActiveLimits} {registry : RegistryBuildResult}
    (hunique : Unique (scanExecutableEntries prds))
    (h : registryOf lib actions prds limits = .ok registry) :
    registry.entries = (scanExecutableEntries prds).map (·.tracked actions) ∧
      registry.limits = limits := by
  unfold registryOf at h
  obtain ⟨entries, hentries, hrest⟩ := Lib.Except.bind_eq_ok.mp h
  have hmap := reconcile_ok hunique hentries
  split at hrest
  · rw [← Except.ok.inj hrest]
    exact ⟨hmap, rfl⟩
  · rw [← Except.ok.inj hrest]
    exact ⟨hmap, rfl⟩

/-! ## Counting slots -/

/-- The entries that take a slot `p` counts. -/
def slots (p : RegistryEntry → Bool) (entries : List RegistryEntry) : Nat :=
  entries.countP fun e => e.executionState.isWip && p e

def ownedBy (owner : String) (p : RegistryEntry → Bool) (e : RegistryEntry) : Bool :=
  e.owner = owner && p e

/-- The limits hold. -/
structure Within (limits : PrdActiveLimits) (entries : List RegistryEntry) : Prop where
  p0 : slots isP0 entries ≤ limits.globalP0ActiveMax
  p0p1 : slots isP0P1 entries ≤ limits.globalP0P1ActiveMax
  ownerP0 : ∀ owner, slots (ownedBy owner isP0) entries ≤ limits.perOwnerP0ActiveMax
  ownerP0P1 : ∀ owner, slots (ownedBy owner isP0P1) entries ≤ limits.perOwnerP0P1ActiveMax
  blocked : ∀ owner, slots (ownedBy owner isBlocked) entries ≤ limits.blockedExternalExceptionMax

/-- The predicates the limits count cannot tell alike entries apart. -/
def Blind (p : RegistryEntry → Bool) : Prop := ∀ e e' : RegistryEntry, e.Alike e' → p e = p e'

theorem blind_isP0 : Blind isP0 := fun e e' h => by rw [isP0, isP0, h.priority]

theorem blind_isP0P1 : Blind isP0P1 := fun e e' h => by rw [isP0P1, isP0P1, h.priority]

theorem blind_isBlocked : Blind isBlocked := fun e e' h => by rw [isBlocked, isBlocked, h.state]

theorem blind_ownedBy {p : RegistryEntry → Bool} (owner : String) (hp : Blind p) :
    Blind (ownedBy owner p) := fun e e' h => by rw [ownedBy, ownedBy, h.owner, hp e e' h]

theorem Within.mono {limits : PrdActiveLimits} {entries entries' : List RegistryEntry}
    (h : Within limits entries)
    (hle : ∀ p, Blind p → slots p entries' ≤ slots p entries) : Within limits entries' where
  p0 := (hle _ blind_isP0).trans h.p0
  p0p1 := (hle _ blind_isP0P1).trans h.p0p1
  ownerP0 owner := (hle _ (blind_ownedBy owner blind_isP0)).trans (h.ownerP0 owner)
  ownerP0P1 owner := (hle _ (blind_ownedBy owner blind_isP0P1)).trans (h.ownerP0P1 owner)
  blocked owner := (hle _ (blind_ownedBy owner blind_isBlocked)).trans (h.blocked owner)

theorem slots_map_le {f : RegistryEntry → RegistryEntry} {entries : List RegistryEntry}
    (hf : ∀ e ∈ entries, (f e).executionState.isWip = true → (f e).Alike e)
    {p : RegistryEntry → Bool} (hp : Blind p) : slots p (entries.map f) ≤ slots p entries := by
  rw [slots, slots, List.countP_map]
  refine List.countP_mono_left fun e he h => ?_
  simp only [Function.comp_apply, Bool.and_eq_true] at h ⊢
  have halike := hf e he h.1
  rw [← halike.state, ← hp _ _ halike]
  exact h

/-- The slots the gate counts: those of the other PRDs. -/
def otherSlots (p : RegistryEntry → Bool) (prdId : String) (entries : List RegistryEntry) : Nat :=
  entries.countP fun e => e.prdId ≠ prdId && (e.executionState.isWip && p e)

/-- One PRD changes: the count stays below the maximum if it was, and if the others leave a slot
where the PRD takes one. -/
theorem slots_atId_le {f : RegistryEntry → RegistryEntry} {prdId : String}
    {entries : List RegistryEntry} (hunique : Unique entries) {p : RegistryEntry → Bool}
    {maximum : Nat} (hold : slots p entries ≤ maximum)
    (hnew : ∀ e ∈ entries, e.prdId = prdId → p (f e) = true →
      otherSlots p prdId entries < maximum) :
    slots p (entries.map (atId prdId f)) ≤ maximum := by
  by_cases htakes : ∃ e ∈ entries, e.prdId = prdId ∧ p (f e) = true
  · obtain ⟨e, he, hid, hp⟩ := htakes
    have hroom := hnew e he hid hp
    suffices h : slots p (entries.map (atId prdId f)) ≤ otherSlots p prdId entries + 1 by omega
    clear hold hnew hroom hp hid he e
    induction entries with
    | nil => simp [slots]
    | cons e entries ih =>
        obtain ⟨hfresh, hrest⟩ := List.nodup_cons.mp hunique
        by_cases hid : e.prdId = prdId
        · have hmem : prdId ∉ entries.map (·.prdId) := hid ▸ hfresh
          have hsame : slots p entries = otherSlots p prdId entries := by
            refine List.countP_congr fun e' he' => ?_
            have hne : e'.prdId ≠ prdId := fun heq => hmem (List.mem_map.mpr ⟨e', he', heq⟩)
            simp [hne]
          rw [List.map_cons, map_atId_of_not_mem hmem]
          simp only [slots, otherSlots, List.countP_cons] at hsame ⊢
          split <;> split <;> omega
        · have hkeep : atId prdId f e = e := if_neg hid
          have := ih hrest
          simp only [slots, otherSlots, List.map_cons, List.countP_cons, hkeep, ne_eq] at this ⊢
          simp only [hid, not_false_eq_true, decide_true, Bool.true_and]
          omega
  · refine le_trans ?_ hold
    rw [slots, slots, List.countP_map]
    refine List.countP_mono_left fun e he h => ?_
    simp only [Function.comp_apply, atId] at h
    split at h
    · next hid =>
        simp only [Bool.and_eq_true] at h
        exact absurd ⟨e, he, hid, h.2⟩ htakes
    · exact h

theorem slots_le_of_alike {entries entries' : List RegistryEntry} (hunique' : Unique entries')
    (hsub : ∀ e' ∈ entries', e'.executionState.isWip = true → ∃ e ∈ entries, e'.Alike e)
    {p : RegistryEntry → Bool} (hp : Blind p) : slots p entries' ≤ slots p entries := by
  have hids : ∀ es : List RegistryEntry, slots p es =
      ((es.filter fun e => e.executionState.isWip && p e).map (·.prdId)).length := by
    intro es
    rw [slots, List.countP_eq_length_filter, List.length_map]
  rw [hids, hids]
  have hnodup : ((entries'.filter fun e => e.executionState.isWip && p e).map (·.prdId)).Nodup :=
    (List.filter_sublist.map _).nodup hunique'
  refine (hnodup.subperm fun id hid => ?_).length_le
  obtain ⟨e', he', rfl⟩ := List.mem_map.mp hid
  obtain ⟨hmem', htakes⟩ := List.mem_filter.mp he'
  simp only [Bool.and_eq_true] at htakes
  obtain ⟨e, hmem, halike⟩ := hsub e' hmem' htakes.1
  refine List.mem_map.mpr ⟨e, List.mem_filter.mpr ⟨hmem, ?_⟩, halike.prdId.symm⟩
  rw [← halike.state, ← hp _ _ halike, htakes.1, htakes.2]
  rfl

/-! ## What the gate checked -/

theorem length_others {f : RegistryEntry → RegistryEntry} (hf : ∀ e, (f e).prdId = e.prdId)
    {prdId : String} {entries : List RegistryEntry} (p : RegistryEntry → Bool) :
    (((wip (entries.map (atId prdId f))).filter fun e => e.prdId ≠ prdId).filter p).length =
      otherSlots p prdId entries := by
  rw [← List.countP_eq_length_filter, List.countP_filter, wip, List.countP_filter, List.countP_map,
    otherSlots]
  refine List.countP_congr fun e _ => ?_
  by_cases hid : e.prdId = prdId
  · simp [atId, hid, hf]
  · simp [atId, hid, and_comm]

/-- A candidate the gate let through finds room in every count it takes a slot of. -/
structure Room (limits : PrdActiveLimits) (entries : List RegistryEntry)
    (candidate : RegistryEntry) : Prop where
  p0 : isP0 candidate = true →
    otherSlots isP0 candidate.prdId entries < limits.globalP0ActiveMax
  p0p1 : isP0P1 candidate = true →
    otherSlots isP0P1 candidate.prdId entries < limits.globalP0P1ActiveMax
  ownerP0 : isP0 candidate = true →
    otherSlots (ownedBy candidate.owner isP0) candidate.prdId entries < limits.perOwnerP0ActiveMax
  ownerP0P1 : isP0P1 candidate = true →
    otherSlots (ownedBy candidate.owner isP0P1) candidate.prdId entries <
      limits.perOwnerP0P1ActiveMax
  blocked : isBlocked candidate = true →
    otherSlots (ownedBy candidate.owner isBlocked) candidate.prdId entries <
      limits.blockedExternalExceptionMax

theorem Check.room {check : Check} (h : check.full = false) (happlies : check.applies = true) :
    check.occupied.length < check.maximum := by
  simpa [Check.full, happlies] using h

theorem asIf_prdId (change : StateChange) (e : RegistryEntry) :
    (change.asIf e).prdId = e.prdId := rfl

theorem admit_room {change : StateChange} {registry : RegistryBuildResult}
    (hunique : Unique registry.entries) (hmem : change.prdId ∈ registry.entries.map (·.prdId))
    (h : change.admit registry = .ok ()) :
    (evaluateActivation
        { registry with entries := updateFirst change.asIf change.prdId registry.entries }
        change.prdId).allowed = true ∧
      ∀ e ∈ registry.entries, e.prdId = change.prdId →
        Room registry.limits registry.entries (change.asIf e) := by
  unfold StateChange.admit at h
  split at h
  · cases h
  · simp only at h
    split at h
    · next hstatus hallowed =>
        refine ⟨hallowed, fun e he hid => ?_⟩
        rw [evaluateActivation, if_neg hstatus] at hallowed
        simp only [updateFirst_eq hunique] at hallowed
        split at hallowed
        · cases hallowed
        · next candidate hfind =>
            have hcandidate : candidate = change.asIf e := by
              have hin := List.mem_of_find?_eq_some hfind
              have hcid : candidate.prdId = change.prdId := by
                simpa using List.find?_some hfind
              obtain ⟨e', he', rfl⟩ := List.mem_map.mp hin
              have hid' : e'.prdId = change.prdId := by
                rw [atId] at hcid
                split at hcid
                · assumption
                · exact hcid
              have heq : e' = e := List.inj_on_of_nodup_map hunique he' he (hid'.trans hid.symm)
              rw [heq, atId, if_pos hid]
            subst hcandidate
            have hcid : (change.asIf e).prdId = change.prdId := hid
            split at hallowed
            · cases hallowed
            · next hblocked =>
                split at hallowed
                · cases hallowed
                · next hchecks =>
                    have hnone := List.find?_eq_none.mp hchecks
                    have hothers := fun p => @length_others change.asIf (asIf_prdId change)
                      change.prdId registry.entries p
                    have hmine : ∀ p, ((((wip (registry.entries.map
                        (atId change.prdId change.asIf))).filter fun e' =>
                          e'.prdId ≠ change.prdId).filter fun e' =>
                            e'.owner = (change.asIf e).owner).filter p).length =
                        otherSlots (ownedBy (change.asIf e).owner p) change.prdId
                          registry.entries := by
                      intro p
                      rw [← hothers, List.filter_filter]
                      congr 2
                      funext e'
                      rw [ownedBy, Bool.and_comm]
                    have hroom : ∀ check ∈ activationChecks (registry.entries.map
                        (atId change.prdId change.asIf)) registry.limits (change.asIf e),
                        check.applies = true → check.occupied.length < check.maximum := by
                      intro check hcheck
                      exact Check.room (by simpa using hnone check hcheck)
                    simp only [activationChecks, hcid, List.forall_mem_cons] at hroom
                    obtain ⟨h1, h2, h3, h4, -⟩ := hroom
                    rw [hothers] at h1 h2
                    rw [hmine] at h3 h4
                    refine ⟨hcid ▸ h1, hcid ▸ h2, hcid ▸ h3, hcid ▸ h4, fun hb => ?_⟩
                    have := Check.room (by simpa using hblocked) hb
                    simp only [blockedCheck, hcid] at this
                    rw [hothers] at this
                    exact hcid ▸ this
    · cases h

/-! ## Runs -/

/-- The PRDs' ids are unique, and their priorities and owners are these. -/
structure Catalogue where
  priority : String → String
  owner : String → String

structure Catalogue.Lists (cat : Catalogue) (prds : List PrdFile) : Prop where
  unique : Unique (scanExecutableEntries prds)
  priority : ∀ e ∈ scanExecutableEntries prds, e.priority = cat.priority e.prdId
  owner : ∀ e ∈ scanExecutableEntries prds, e.owner = cat.owner e.prdId

def executableIds (prds : List PrdFile) : List String :=
  (scanExecutableEntries prds).map (·.prdId)

/-- The condition on one step: a state that takes a slot is asked for a PRD that is executable then,
and a PRD that becomes executable holds no slot in the ledger. -/
def Regular (w : World) : Event → Prop
  | .call (.setExecutionState change) =>
      change.state.isWip = true → change.prdId ∈ executableIds w.prds
  | .call _ => True
  | .prds files => ∀ e ∈ scanExecutableEntries files,
      (e.tracked w.actions).executionState.isWip = true → e.prdId ∈ executableIds w.prds

/-- The gate, asked on the registry of the actions and files before the append, permits the
change. -/
def Permitted (lib : Stdlib) (w : World) (change : StateChange) : Prop :=
  ∃ registry, registryOf lib w.actions w.prds {} = .ok registry ∧
    (evaluateActivation
      { registry with entries := updateFirst change.asIf change.prdId registry.entries }
      change.prdId).allowed = true

/-- Every registry with the status `ok` is within the limits of the gate. -/
def WithinLimits (lib : Stdlib) (w : World) : Prop :=
  ∀ limits registry, registryOf lib w.actions w.prds limits = .ok registry →
    registry.status = .ok → Within {} registry.entries

theorem scan_candidate {prds : List PrdFile} {e : RegistryEntry}
    (he : e ∈ scanExecutableEntries prds) : e.executionState = .candidate := by
  rw [scanExecutableEntries, List.mem_insertionSort, List.mem_filterMap] at he
  obtain ⟨file, -, hentry⟩ := he
  obtain ⟨fm, -, hfm⟩ := Option.bind_eq_some_iff.mp hentry
  split at hfm
  · cases hfm
  · exact Option.some.inj hfm ▸ rfl

theorem Catalogue.Lists.alike {cat : Catalogue} {prds prds' : List PrdFile} (h : cat.Lists prds)
    (h' : cat.Lists prds') {e e' : RegistryEntry} (he : e ∈ scanExecutableEntries prds)
    (he' : e' ∈ scanExecutableEntries prds') (hid : e'.prdId = e.prdId) : e'.Alike e where
  prdId := hid
  priority := by rw [h.priority e he, h'.priority e' he', hid]
  owner := by rw [h.owner e he, h'.owner e' he', hid]
  state := by rw [scan_candidate he, scan_candidate he']

theorem payload_get (change : StateChange) (actions : List SchedulingAction) :
    let payload := (change.request.action lib actions).payload
    (payload.get "prd_id").getD "" = change.prdId ∧
      (payload.get "state").bind ExecutionState.ofText = some change.state ∧
      (payload.get "owner").getD "" = change.owner := by
  by_cases howner : change.owner = ""
  · simp [Request.action, StateChange.request, howner, Payload.ofDict, Payload.get, sortByKey,
      Dict.lookup]
  · simp [Request.action, StateChange.request, howner, Payload.ofDict, Payload.get, sortByKey,
      Dict.lookup]

theorem track_change (change : StateChange) (actions : List SchedulingAction) (e : RegistryEntry) :
    e.track (change.request.action lib actions) =
      atId change.prdId ((change.request.action lib actions).apply change.state) e := by
  obtain ⟨hid, hstate, -⟩ := @payload_get lib change actions
  rw [RegistryEntry.track, hid, atId]
  simp only [eq_comm (a := change.prdId)]
  split
  · change (match (_ : Option ExecutionState) with | some state => _ | none => _) = _
    rw [hstate]
  · rfl

theorem apply_alike (change : StateChange) (actions : List SchedulingAction) (e : RegistryEntry) :
    ((change.request.action lib actions).apply change.state e).Alike (change.asIf e) where
  prdId := rfl
  priority := rfl
  owner := by
    obtain ⟨-, -, howner⟩ := @payload_get lib change actions
    rw [SchedulingAction.apply, StateChange.asIf, howner]
  state := rfl

theorem track_ungated {call : WriterCall} {actions : List SchedulingAction}
    (hcall : ∀ change, call = .setExecutionState change → change.state.isWip = false)
    (e : RegistryEntry)
    (hwip : (e.track (call.request.action lib actions)).executionState.isWip = true) :
    (e.track (call.request.action lib actions)).Alike e := by
  cases call with
  | advanceEvaluationEpoch receipt actor actionId today =>
      rw [RegistryEntry.track]
      split <;> exact ⟨rfl, rfl, rfl, rfl⟩
  | renew prdId receipt actor actionId today =>
      rw [RegistryEntry.track]
      split <;> exact ⟨rfl, rfl, rfl, rfl⟩
  | setExecutionState change =>
      have hnot := hcall change rfl
      rw [WriterCall.request, track_change, atId] at hwip ⊢
      split at hwip
      · rw [SchedulingAction.apply, hnot] at hwip
        cases hwip
      · next hid =>
          rw [if_neg hid]
          exact ⟨rfl, rfl, rfl, rfl⟩

/-- The counts of the entries the ledger has tracked. -/
def Held (w : World) : Prop :=
  Within {} ((scanExecutableEntries w.prds).map (·.tracked w.actions))

theorem gated_room {w : World} {change : StateChange} {action : SchedulingAction}
    (hunique : Unique (scanExecutableEntries w.prds))
    (hmem : change.prdId ∈ executableIds w.prds) (hwip : change.state.isWip = true)
    (h : (WriterCall.setExecutionState change).takes lib w.prds w.actions = .ok action) :
    Permitted lib w change ∧
      ∀ e ∈ (scanExecutableEntries w.prds).map (·.tracked w.actions), e.prdId = change.prdId →
        Room {} ((scanExecutableEntries w.prds).map (·.tracked w.actions)) (change.asIf e) := by
  obtain ⟨hgate, -⟩ := WriterCall.takes_ok h
  rw [WriterCall.gate, if_pos hwip] at hgate
  obtain ⟨registry, hregistry, hadmit⟩ := Lib.Except.bind_eq_ok.mp hgate
  obtain ⟨hentries, hlimits⟩ := registryOf_ok hunique hregistry
  have hids : registry.entries.map (·.prdId) = executableIds w.prds := by
    rw [hentries, executableIds, List.map_map]
    exact List.map_congr_left fun e _ => e.tracked_prdId w.actions
  have hunique' : Unique registry.entries := by
    rw [Unique, hids]
    exact hunique
  obtain ⟨hallowed, hroom⟩ := admit_room hunique' (hids ▸ hmem) hadmit
  rw [hentries, hlimits] at hroom
  exact ⟨⟨registry, hregistry, hallowed⟩, hroom⟩

@[simp] theorem World.next_call_prds (w : World) (call : WriterCall) :
    (w.next lib (.call call)).prds = w.prds := by
  rw [World.next]
  split <;> rfl

theorem Held.next {w : World} {event : Event} {cat : Catalogue} (hheld : Held w)
    (hlists : cat.Lists w.prds) (hregular : Regular w event)
    (hlists' : cat.Lists (w.next lib event).prds) : Held (w.next lib event) := by
  cases event with
  | prds files =>
      refine hheld.mono fun p hp => ?_
      refine slots_le_of_alike (unique_map (fun e => e.tracked_prdId _) hlists'.unique) ?_ hp
      intro e' he' hwip
      obtain ⟨scanned, hscanned, rfl⟩ := List.mem_map.mp he'
      obtain ⟨e, he, hid⟩ := List.mem_map.mp (hregular scanned hscanned hwip)
      exact ⟨e.tracked w.actions, List.mem_map.mpr ⟨e, he, rfl⟩,
        (hlists.alike hlists' he hscanned hid.symm).tracked w.actions⟩
  | call call =>
      cases htakes : call.takes lib w.prds w.actions with
      | error failure => simpa only [World.next, htakes] using hheld
      | ok action =>
          have haction := (WriterCall.takes_ok htakes).2
          have hmap : (scanExecutableEntries w.prds).map (·.tracked (w.actions ++ [action])) =
              ((scanExecutableEntries w.prds).map (·.tracked w.actions)).map (·.track action) := by
            rw [List.map_map]
            refine List.map_congr_left fun e _ => ?_
            rw [RegistryEntry.tracked, List.foldl_append]
            rfl
          simp only [World.next, htakes, Held]
          rw [hmap]
          by_cases hgated : ∃ change, call = .setExecutionState change ∧ change.state.isWip = true
          · obtain ⟨change, rfl, hwip⟩ := hgated
            obtain ⟨-, hroom⟩ := gated_room hlists.unique (hregular hwip) hwip htakes
            have hunique : Unique ((scanExecutableEntries w.prds).map (·.tracked w.actions)) :=
              unique_map (fun e => e.tracked_prdId _) hlists.unique
            have hat : ((scanExecutableEntries w.prds).map (·.tracked w.actions)).map
                (·.track action) = ((scanExecutableEntries w.prds).map (·.tracked w.actions)).map
                  (atId change.prdId (action.apply change.state)) := by
              refine List.map_congr_left fun e _ => ?_
              rw [haction]
              exact track_change change w.actions e
            have halike : ∀ e, (action.apply change.state e).Alike (change.asIf e) := by
              intro e
              rw [haction]
              exact apply_alike change w.actions e
            rw [hat]
            refine ⟨slots_atId_le hunique hheld.p0 fun e he hid hp => ?_,
              slots_atId_le hunique hheld.p0p1 fun e he hid hp => ?_,
              fun owner => slots_atId_le hunique (hheld.ownerP0 owner) fun e he hid hp => ?_,
              fun owner => slots_atId_le hunique (hheld.ownerP0P1 owner) fun e he hid hp => ?_,
              fun owner => slots_atId_le hunique (hheld.blocked owner) fun e he hid hp => ?_⟩
            · exact hid ▸ (hroom e he hid).p0 (blind_isP0 _ _ (halike e) ▸ hp)
            · exact hid ▸ (hroom e he hid).p0p1 (blind_isP0P1 _ _ (halike e) ▸ hp)
            · rw [blind_ownedBy owner blind_isP0 _ _ (halike e), ownedBy, Bool.and_eq_true] at hp
              obtain rfl : (change.asIf e).owner = owner := by simpa using hp.1
              exact hid ▸ (hroom e he hid).ownerP0 hp.2
            · rw [blind_ownedBy owner blind_isP0P1 _ _ (halike e), ownedBy, Bool.and_eq_true] at hp
              obtain rfl : (change.asIf e).owner = owner := by simpa using hp.1
              exact hid ▸ (hroom e he hid).ownerP0P1 hp.2
            · rw [blind_ownedBy owner blind_isBlocked _ _ (halike e), ownedBy,
                Bool.and_eq_true] at hp
              obtain rfl : (change.asIf e).owner = owner := by simpa using hp.1
              exact hid ▸ (hroom e he hid).blocked hp.2
          · refine hheld.mono fun p hp => slots_map_le (fun e _ hwip => ?_) hp
            rw [haction] at hwip ⊢
            refine track_ungated (fun change hchange => ?_) e hwip
            by_contra hwip'
            exact hgated ⟨change, hchange, by simpa using hwip'⟩

/-- One regular step over directories the catalogue lists. -/
def RegularStep (lib : Stdlib) (cat : Catalogue) (w : World) (event : Event) (w' : World) : Prop :=
  w' = w.next lib event ∧ Regular w event ∧ cat.Lists w'.prds

theorem run_held {cat : Catalogue} {prds : List PrdFile} (hstart : cat.Lists prds)
    {events : List Event} {w : World}
    (h : Run (RegularStep lib cat) ⟨[], prds⟩ events w) : cat.Lists w.prds ∧ Held w := by
  refine h.invariant (I := fun w => cat.Lists w.prds ∧ Held w) ⟨hstart, ?_⟩ ?_
  · have hnone : ∀ p, slots p ((scanExecutableEntries prds).map (·.tracked [])) = 0 := by
      intro p
      refine List.countP_eq_zero.mpr fun e he => ?_
      obtain ⟨scanned, hscanned, rfl⟩ := List.mem_map.mp he
      rw [RegistryEntry.tracked, List.foldl_nil, scan_candidate hscanned]
      simp [ExecutionState.isWip]
    exact ⟨by rw [hnone]; omega, by rw [hnone]; omega, fun _ => by rw [hnone]; omega,
      fun _ => by rw [hnone]; omega, fun _ => by rw [hnone]; omega⟩
  · rintro s event _ ⟨hlists, hheld⟩ ⟨rfl, hregular, hlists'⟩
    exact ⟨hlists', hheld.next hlists hregular hlists'⟩

/-- In a run of regular steps every slot was taken through the gate, and the limits hold in every
state reached. -/
theorem wip_limits {cat : Catalogue} {prds : List PrdFile} (hstart : cat.Lists prds)
    {events : List Event} {w : World}
    (h : Run (RegularStep lib cat) ⟨[], prds⟩ events w) :
    (∀ before change after, events = before ++ .call (.setExecutionState change) :: after →
        change.state.isWip = true →
        ∃ s, Run (RegularStep lib cat) ⟨[], prds⟩ before s ∧
          ∀ action, (WriterCall.setExecutionState change).takes lib s.prds s.actions = .ok action →
            Permitted lib s change) ∧
      WithinLimits lib w := by
  constructor
  · rintro before change after rfl hwip
    obtain ⟨s, t, hbefore, hstep, -⟩ := h.split
    refine ⟨s, hbefore, fun action htakes => ?_⟩
    exact (gated_room (run_held hstart hbefore).1.unique (hstep.2.1 hwip) hwip htakes).1
  · intro limits registry hregistry _
    obtain ⟨hlists, hheld⟩ := run_held hstart h
    rw [(registryOf_ok hlists.unique hregistry).1]
    exact hheld

end

/-! ### Two PRDs of one owner -/

/-- Every text has the same hash; nothing below compares two. -/
def plainStdlib : Stdlib := { decimalStdlib with sha256 := fun _ => "0" }

def samplePrd (stem : String) : PrdFile :=
  ⟨stem, "", some { id := some stem, status := "approved", priority := some "p0" }⟩

def sampleActivate (prdId : String) : StateChange where
  prdId := prdId
  state := .active
  authorizationReceipt := "receipt"
  actor := "operator"
  actionId := prdId
  today := "2026-07-24"

def sampleCatalogue : Catalogue := ⟨fun _ => "P0", fun _ => "unassigned"⟩

def sampleFiles : List PrdFile := [samplePrd "PRD-1", samplePrd "PRD-2"]

theorem sampleCatalogue_nil : sampleCatalogue.Lists [] where
  unique := List.nodup_nil
  priority := by simp [scanExecutableEntries]
  owner := by simp [scanExecutableEntries]

theorem sampleCatalogue_files : sampleCatalogue.Lists sampleFiles where
  unique := by
    change ((scanExecutableEntries sampleFiles).map (·.prdId)).Nodup
    decide
  priority := by decide +kernel
  owner := by decide

/-- The epoch is set, and each PRD activated, from `prds` on. -/
def sampleActivated (prds : List PrdFile) : World :=
  (((⟨[], prds⟩ : World).next plainStdlib (.call sampleAdvance)).next plainStdlib
    (.call (.setExecutionState (sampleActivate "PRD-1")))).next plainStdlib
      (.call (.setExecutionState (sampleActivate "PRD-2")))

/-- With the files there the second activation is refused, and the limits hold. -/
theorem wip_limits_sample : WithinLimits plainStdlib (sampleActivated sampleFiles) := by
  have hmem : ∀ prdId ∈ ["PRD-1", "PRD-2"], prdId ∈ executableIds sampleFiles := by
    decide
  have hrun : Run (RegularStep plainStdlib sampleCatalogue) ⟨[], sampleFiles⟩
      ([] ++ [.call sampleAdvance] ++ [.call (.setExecutionState (sampleActivate "PRD-1"))] ++
        [.call (.setExecutionState (sampleActivate "PRD-2"))]) (sampleActivated sampleFiles) := by
    exact ((Run.nil.snoc ⟨rfl, trivial, by simpa using sampleCatalogue_files⟩).snoc
      ⟨rfl, fun _ => by simpa [sampleActivate] using hmem "PRD-1" (by simp),
        by simpa using sampleCatalogue_files⟩).snoc
      ⟨rfl, fun _ => by simpa [sampleActivate] using hmem "PRD-2" (by simp),
        by simpa [sampleActivated] using sampleCatalogue_files⟩
  exact (wip_limits sampleCatalogue_files hrun).2

/-- Activated before their files are there, both PRDs have a slot when the files come, where one
owner may have one; the gate would have refused the first of them already. -/
theorem absent_prds_activated :
    (sampleCatalogue.Lists [] ∧ sampleCatalogue.Lists sampleFiles) ∧
      (∃ action, (WriterCall.setExecutionState (sampleActivate "PRD-1")).takes plainStdlib []
        ((⟨[], []⟩ : World).next plainStdlib (.call sampleAdvance)).actions = .ok action) ∧
      ¬ Permitted plainStdlib ((⟨[], []⟩ : World).next plainStdlib (.call sampleAdvance))
        (sampleActivate "PRD-1") ∧
      ¬ WithinLimits plainStdlib ((sampleActivated []).next plainStdlib (.prds sampleFiles)) := by
  refine ⟨⟨sampleCatalogue_nil, sampleCatalogue_files⟩, ?_, ?_, fun h => ?_⟩
  · have htakes : ((WriterCall.setExecutionState (sampleActivate "PRD-1")).takes plainStdlib []
        ((⟨[], []⟩ : World).next plainStdlib (.call sampleAdvance)).actions).toOption.isSome := by
      decide
    obtain ⟨action, haction⟩ := Option.isSome_iff_exists.mp htakes
    exact ⟨action, Lib.Except.ok_of_toOption haction⟩
  · rintro ⟨registry, hregistry, hallowed⟩
    have hrefused : ((registryOf plainStdlib
        ((⟨[], []⟩ : World).next plainStdlib (.call sampleAdvance)).actions [] {}).toOption.all
          fun r => r.entries.isEmpty) = true := by
      decide
    rw [show registryOf plainStdlib ((⟨[], []⟩ : World).next plainStdlib
        (.call sampleAdvance)).actions [] {} = .ok registry from hregistry] at hrefused
    have hempty : registry.entries = [] := by simpa [Except.toOption] using hrefused
    rw [evaluateActivation] at hallowed
    split at hallowed
    · cases hallowed
    · rw [hempty] at hallowed
      cases hallowed
  · have hover : ((registryOf plainStdlib (sampleActivated []).actions sampleFiles {}).toOption.any
        fun r => r.status = .ok && decide (1 < slots (ownedBy "unassigned" isP0) r.entries)) =
          true := by
      decide +kernel
    cases hregistry : registryOf plainStdlib (sampleActivated []).actions sampleFiles {} with
    | error failure => simp [hregistry, Except.toOption] at hover
    | ok registry =>
        simp only [hregistry, Except.toOption, Option.any_some, Bool.and_eq_true,
          decide_eq_true_eq] at hover
        exact absurd ((h {} registry hregistry hover.1).ownerP0 "unassigned") (by
          simpa using hover.2)

section

variable {lib : Stdlib}

end

end TrwMcp.Scheduling
