import TrwMcp.Comms.AhrActions

/-!
# What one call does

`perform` is inverted once. A call that commits has moved the clock, expired what was due and swept
the AHR offers (`Prepared`); its action was then refused and counted, left both handoff ledgers
alone, wrote them for some messages, or offered a record on a row it admitted (`Acted`).
-/

namespace TrwMcp.Comms

open Handoff Lib

section

variable {lib : Stdlib} {T : Type} {db db' : Db T} {now : T}

/-! ## The handoff facts -/

/-- The fact a handoff action records. -/
def InboxAction.fact : InboxAction → Option Fact
  | .accept => some .accepted
  | .report => some .reported
  | .complete => some .completed
  | _ => none

/-- The fact was recorded on the messages that did not have it, and no other handoff fact. -/
structure Recorded (db : Db T) (fact : Fact) (ids : List String) (db' : Db T) : Prop
    extends SameEvents db db' where
  rows : KeepsRows db db'
  facts : ∀ id f, f.isHandoff → (hasFact db' f id ↔ hasFact db f id ∨ f = fact ∧ id ∈ ids)

theorem hasFact_insertMilestone {id : String} {fact : Fact}
    (h : insertMilestone db id fact now = .ok db') (id' : String) (f : Fact) :
    hasFact db' f id' ↔ hasFact db f id' ∨ f = fact ∧ id' = id := by
  obtain ⟨_, rfl⟩ := insertMilestone_ok h
  rw [hasFact, factAt_set]
  by_cases heq : (id', f) = (id, fact)
  · obtain ⟨rfl, rfl⟩ := Prod.mk.inj heq
    simp
  · rw [if_neg heq]
    have hne : ¬(f = fact ∧ id' = id) := fun h => heq (by rw [h.1, h.2])
    simp [hasFact, hne]

theorem recordFact_ok {rows : List (Row T)} {recorded : String → Bool} {fact : Fact}
    (h : recordFact db rows recorded fact now = .ok db') :
    SameEvents db db' ∧ db'.admissions = db.admissions ∧
      ∀ id f, hasFact db' f id ↔
        hasFact db f id ∨ f = fact ∧ id ∈ rows.map (·.1) ∧ recorded id = false := by
  induction rows generalizing db with
  | nil =>
      cases h
      exact ⟨.refl _, rfl, by simp⟩
  | cons row rows ih =>
      obtain ⟨mid, hmid, h⟩ := Except.bind_eq_ok.mp h
      obtain ⟨hevents, hrows, hfacts⟩ := ih h
      simp only at hmid
      split at hmid
      · next hdone =>
        cases hmid
        refine ⟨hevents, hrows, fun id f => ?_⟩
        rw [hfacts]
        by_cases hid : id = row.1
        · simp [hid, hdone]
        · simp [hid]
      · next hopen =>
        have hinsert := hasFact_insertMilestone hmid
        obtain ⟨_, rfl⟩ := insertMilestone_ok hmid
        refine ⟨⟨hevents.events, hevents.written⟩, hrows, fun id f => ?_⟩
        rw [hfacts, hinsert]
        by_cases hid : id = row.1
        · subst hid
          simp [hopen]
          tauto
        · simp [hid]

theorem Recorded.of_recordFact {mid : Db T} {rows : List (Row T)} {fact : Fact} {ids : List String}
    (hquiet : Quiet db mid) (hids : rows.map (·.1) = ids)
    (h : recordFact mid rows (hasFact db fact) fact now = .ok db') : Recorded db fact ids db' := by
  obtain ⟨hevents, hrows, hfacts⟩ := recordFact_ok h
  have hkeep : KeepsRows mid db' := .of_eq hrows
  refine ⟨hquiet.toSameEvents.trans hevents, fun id a ha => ?_, fun id f hf => ?_⟩
  · obtain ⟨b, hb, hab⟩ := hquiet.rows id a ha
    obtain ⟨c, hc, hbc⟩ := hkeep id b hb
    exact ⟨c, hc, hbc.trans hab⟩
  · rw [hfacts, hasFact, hquiet.facts id f hf, ← hasFact, hids]
    constructor
    · rintro (hold | ⟨hff, hmem, _⟩)
      · exact .inl hold
      · exact .inr ⟨hff, hmem⟩
    · rintro (hold | ⟨rfl, hmem⟩)
      · exact .inl hold
      · by_cases hdb : hasFact db f id
        · exact .inl hdb
        · exact .inr ⟨rfl, hmem, by simpa using hdb⟩

/-- What a handoff write checked of a message: its row, its group and its kind. -/
def Handed (db : Db T) (groupId id : String) : Prop :=
  ∃ row, Dict.lookup db.admissions id = some row ∧ row.groupId = groupId ∧ row.kind = "request"

variable {binding : CallerBinding}

theorem rowInGroup_ok {groupId id : String} {row : Admission T}
    (h : rowInGroup db groupId id = .ok row) :
    Dict.lookup db.admissions id = some row ∧ row.groupId = groupId := by
  unfold rowInGroup at h
  split at h
  · next found hfound =>
    split at h
    · next hgroup =>
      cases h
      exact ⟨hfound, hgroup⟩
    · cases h
  · cases h

theorem handoffRows_ok {ids : List String} {asSender : Bool} {rows : List (Row T)}
    (h : handoffRows db binding ids asSender = .ok rows) :
    rows.map (·.1) = ids ∧ ∀ id ∈ ids, Handed db binding.groupId id := by
  have hall := Except.forall₂_of_mapM h
  clear h
  induction hall with
  | nil => exact ⟨rfl, by simp⟩
  | cons hrow _ ih =>
      simp only [Except.bind_eq_ok, Except.pure_eq_ok, Except.throw_ne_ok, ite_eq_iff, false_and,
        and_false, exists_false, false_or, not_not] at hrow
      obtain ⟨row, hfound, _, hkind, rfl⟩ := hrow
      obtain ⟨hlookup, hgroup⟩ := rowInGroup_ok hfound
      refine ⟨by rw [List.map_cons, ih.1], fun id hid => ?_⟩
      rcases List.mem_cons.mp hid with rfl | hid
      · exact ⟨row, hlookup, hgroup, by simpa using hkind⟩
      · exact ih.2 id hid

theorem insertReport_ok {id nextRead : String} (h : insertReport db id nextRead now = .ok db') :
    Recorded db .reported [id] db' := by
  simp only [insertReport, Except.bind_eq_ok, Except.pure_eq_ok, Except.throw_ne_ok, ite_eq_iff,
    false_and, and_false, exists_false, false_or] at h
  obtain ⟨mid, hmid, _, rfl⟩ := h
  have hfacts := hasFact_insertMilestone hmid
  obtain ⟨_, rfl⟩ := insertMilestone_ok hmid
  refine ⟨⟨rfl, rfl⟩, .of_eq rfl, fun id' f _ => ?_⟩
  rw [List.mem_singleton]
  exact hfacts id' f

theorem accept_ok {ids : List String} (h : accept db binding ids now = .ok db') :
    Recorded db .accepted ids db' ∧ ∀ id ∈ ids, Handed db binding.groupId id := by
  simp only [accept, Except.bind_eq_ok, Except.throw_ne_ok, ite_eq_iff, false_and, and_false,
    exists_false, false_or] at h
  obtain ⟨checked, hchecked, _, acked, hacked, h⟩ := h
  obtain ⟨hids, hhanded⟩ := handoffRows_ok hchecked
  exact ⟨.of_recordFact (quiet_acknowledge hacked) hids h, hhanded⟩

theorem report_ok {id nextRead : String} (h : report lib db binding id nextRead now = .ok db') :
    Recorded db .reported [id] db' ∧ Handed db binding.groupId id ∧ hasFact db .accepted id := by
  simp only [report, Except.bind_eq_ok, Except.throw_ne_ok, ite_eq_iff, false_and, and_false,
    exists_false, false_or] at h
  obtain ⟨_, checked, hchecked, haccepted, h⟩ := h
  obtain ⟨_, hhanded⟩ := handoffRows_ok hchecked
  refine ⟨?_, hhanded id (by simp), by simpa using haccepted⟩
  rcases h with ⟨hreported, h⟩ | ⟨_, h⟩
  · obtain rfl : db = db' := by
      unfold repeatReport at h
      split at h
      · split at h
        · exact Except.pure_eq_ok.mp h
        · cases h
      · cases h
    refine ⟨.refl _, .of_eq rfl, fun id' f _ => ?_⟩
    simp only [List.mem_singleton]
    constructor
    · exact .inl
    · rintro (hold | ⟨rfl, rfl⟩)
      · exact hold
      · exact hreported
  · exact insertReport_ok h

theorem complete_ok {ids : List String} (h : complete db binding ids now = .ok db') :
    Recorded db .completed ids db' ∧
      ∀ id ∈ ids, Handed db binding.groupId id ∧ hasFact db .reported id := by
  simp only [complete, Except.bind_eq_ok, Except.throw_ne_ok, ite_eq_iff, false_and, and_false,
    exists_false, false_or] at h
  obtain ⟨checked, hchecked, hreported, h⟩ := h
  obtain ⟨hids, hhanded⟩ := handoffRows_ok hchecked
  refine ⟨.of_recordFact (.refl db) hids h, fun id hid => ⟨hhanded id hid, ?_⟩⟩
  rw [← hids] at hid
  obtain ⟨row, hrow, rfl⟩ := List.mem_map.mp hid
  by_contra hmissing
  exact hreported (List.any_eq_true.mpr ⟨row, hrow, by simpa using hmissing⟩)

theorem milestoneWrite_sameEvents {action : InboxAction} {ids : List String}
    {nextRead : Option String} (h : milestoneWrite lib db binding action ids nextRead now = .ok db') :
    SameEvents db db' := by
  unfold milestoneWrite at h
  split at h
  · exact (accept_ok h).1.toSameEvents
  · exact (report_ok h).1.toSameEvents
  · exact (complete_ok h).1.toSameEvents
  · cases h
    exact .refl _

/-! ## Before the action -/

variable [Clock T]

/-- The clock, lazy expiry, the sweep and the tombstones. -/
structure Prepared (lib : Stdlib) (call : Call T) (db : Db T) (now : T) (db' : Db T) : Prop where
  time : now = effectiveTime db call.snapshot.binding.groupId call.wall
  swept : ∃ mid swept, Quiet db mid ∧
    sweepExpired lib call.env mid call.snapshot.binding.groupId now = .ok swept ∧ Quiet swept db'

omit [Clock T] in
theorem quiet_closeGroup (db : Db T) (groupId : String) (closed : Bool) :
    Quiet db (closeGroup db groupId closed) := by
  unfold closeGroup
  split
  · exact quiet_updateGroup _ _ _
  · exact .refl _

theorem prepare_ok {call : Call T} {closed : Bool} (h : prepare lib db call = .ok (db', now, closed)) :
    Prepared lib call db now db' := by
  simp only [prepare, Except.bind_eq_ok, Except.pure_eq_ok, Prod.mk.injEq] at h
  obtain ⟨born, hborn, swept, hswept, group, _, rfl, rfl, _⟩ := h
  refine ⟨rfl, _, swept, ?_, hswept, ?_⟩
  · exact ((quiet_ensureGroup hborn).trans (quiet_touchGroupTime _ _ _)).trans
      (quiet_expireDue _ _ _ _)
  · exact (quiet_tombstoneDue _ _ _ _).trans (quiet_closeGroup _ _ _)

/-! ## The action -/

/-- What the action of a call did to the handoff ledgers. -/
inductive Acted (lib : Stdlib) (call : Call T) (db : Db T) (now : T) : Db T → Prop
  | quiet {db' : Db T} (quiet : Quiet db db') : Acted lib call db now db'
  | handoff {mid db' : Db T} {args : InboxArgs} (quiet : Quiet db mid)
      (wrote : handoffAction lib call.env mid call.snapshot.binding args now
        call.config.fetchMaxItems.val = .ok db') : Acted lib call db now db'
  | offered {touched mid db' : Db T} {e : Envelope} {ttl : Nat} {row : Row T} {record : Json}
      (quiet : Quiet db touched) (request : e.kind = "request") (listed : Listed record)
      (admitted : admitMessage lib call.env touched call.snapshot e now ttl false = .ok (mid, row))
      (wrote : offer lib call.env mid call.snapshot.binding.groupId row.1 record now = .ok db') :
      Acted lib call db now db'

theorem Acted.after {call : Call T} {mid : Db T} (hq : Quiet db mid)
    (h : Acted lib call mid now db') : Acted lib call db now db' := by
  cases h with
  | quiet hquiet => exact .quiet (hq.trans hquiet)
  | handoff hquiet hwrote => exact .handoff (hq.trans hquiet) hwrote
  | offered hquiet hrequest hlisted hadmitted hwrote =>
      exact .offered (hq.trans hquiet) hrequest hlisted hadmitted hwrote

theorem inboxAction_cases {call : Call T} {args : InboxArgs} {incarnation : Option String}
    (h : inboxAction lib call.env db call.snapshot.binding args incarnation now call.config =
      .ok db') : Acted lib call db now db' := by
  simp only [inboxAction, Except.bind_eq_ok, Except.throw_ne_ok, ite_eq_iff, false_and,
    and_false, exists_false, false_or] at h
  obtain ⟨_, ⟨_, hwrote⟩ | ⟨_, _, hrest⟩⟩ := h
  · exact .handoff (.refl db) hwrote
  · rcases hrest with ⟨_, _, _, rows, _, _, hack⟩ | ⟨_, _, after, _, group, _, _, hpage⟩
    · exact .quiet (quiet_acknowledge hack)
    · exact .quiet (quiet_readPage hpage)

theorem renewCaller_quiet {call : Call T} {args : InboxArgs} {ttl : Nat}
    {incarnation : Option String}
    (h : renewCaller call args db now ttl = .ok (db', incarnation)) : Quiet db db' := by
  unfold renewCaller at h
  simp only at h
  split at h
  · obtain ⟨⟨mid, mine⟩, hmid, h⟩ := Except.bind_eq_ok.mp h
    cases h
    exact quiet_receiverIncarnation hmid
  · obtain ⟨mid, hmid, h⟩ := Except.bind_eq_ok.mp h
    cases h
    exact quiet_touch hmid

theorem inboxBody_cases {call : Call T} {args : InboxArgs} {closed : Bool}
    (h : inboxBody lib call args db now closed = .ok db') : Acted lib call db now db' := by
  simp only [inboxBody, Except.bind_eq_ok, Except.throw_ne_ok, ite_eq_iff, false_and,
    and_false, exists_false, false_or] at h
  obtain ⟨_, ⟨mid, incarnation⟩, hmid, _, _, _, h⟩ := h
  exact (inboxAction_cases h).after (renewCaller_quiet hmid)

theorem sealUnsealed_listed {record sealed : Json} (h : Listed record)
    (hs : sealUnsealed lib record = .ok sealed) : Listed sealed := by
  unfold sealUnsealed at hs
  split at hs
  · cases hs
    exact h
  · obtain ⟨doc, hdoc, hs⟩ := Except.bind_eq_ok.mp hs
    cases hs
    obtain ⟨hdistinct, hdict⟩ := sealDoc_distinct h.distinct (uncaught_eq_ok.mp hdoc)
    exact hdistinct.listed hdict

theorem readOffer_listed {env : Surroundings} {path sender recipient : String} {record : Json}
    (h : readOffer lib env path sender recipient = .ok record) : Listed record := by
  simp only [readOffer, Except.bind_eq_ok, Except.pure_eq_ok, Except.throw_ne_ok, ite_eq_iff,
    false_and, and_false, exists_false, false_or] at h
  obtain ⟨loaded, hload, sealed, hsealed, ⟨log, errs⟩, _, _, h⟩ := h
  obtain ⟨_, _, _, _, _, _, _, _, _, _, _, _, _, _, _, rfl⟩ := h
  exact sealUnsealed_listed (loadRecord_listed hload) hsealed

theorem offerRecord_some {env : Surroundings} {args : SendArgs} {sender : String} {record : Json}
    (h : offerRecord lib env args sender = .ok (some record)) :
    args.kind = "request" ∧ Listed record := by
  unfold offerRecord at h
  split at h
  · cases h
  · split at h
    · simp only [ne_eq, Except.throw_ne_ok, ite_eq_iff, Except.bind_eq_ok, false_and, and_false,
        exists_false, false_or, not_not] at h
      obtain ⟨hkind, _, h⟩ := h
      split at h
      · obtain ⟨doc, hdoc, h⟩ := Except.bind_eq_ok.mp h
        cases h
        exact ⟨hkind, readOffer_listed hdoc⟩
      · cases h
    · cases h
  · cases h

theorem sendDirect_cases {call : Call T} {args : SendArgs} {record : Option Json} {text : String}
    (hrecord : ∀ r, record = some r → args.kind = "request" ∧ Listed r)
    (h : sendDirect lib call args record text db now = .ok db') : Acted lib call db now db' := by
  unfold sendDirect at h
  obtain ⟨⟨mid, row⟩, hadmit, h⟩ := Except.bind_eq_ok.mp h
  cases record with
  | none =>
      cases h
      exact .quiet (quiet_admitMessage hadmit)
  | some r => exact .offered (.refl db) (hrecord r rfl).1 (hrecord r rfl).2 hadmit h

theorem sendScoped_cases {call : Call T} {args : SendArgs} {scope text : String}
    (h : sendScoped lib call args scope text db now = .ok db') : Acted lib call db now db' := by
  unfold sendScoped at h
  obtain ⟨parsed, _, h⟩ := Except.bind_eq_ok.mp h
  obtain ⟨⟨mid, rows⟩, hnotify, h⟩ := Except.bind_eq_ok.mp h
  cases h
  exact .quiet (quiet_notify hnotify)

theorem sendBody_cases {call : Call T} {args : SendArgs}
    (h : sendBody lib call args db now = .ok db') : Acted lib call db now db' := by
  simp only [sendBody, Except.bind_eq_ok, Except.throw_ne_ok, ite_eq_iff,
    false_and, and_false, exists_false, false_or] at h
  obtain ⟨_, _, mid, hmid, record, hrecord, text, _, h⟩ := h
  split at h
  · refine (sendDirect_cases ?_ h).after (quiet_touch hmid)
    rintro r rfl
    exact offerRecord_some hrecord
  · exact (sendScoped_cases h).after (quiet_touch hmid)

theorem peersBody_cases {call : Call T} {action : PeerAction} {fits closed : Bool}
    (h : peersBody call action fits db now closed = .ok db') : Acted lib call db now db' := by
  simp only [peersBody, Except.bind_eq_ok, Except.pure_eq_ok, Except.throw_ne_ok, ite_eq_iff,
    false_and, and_false, exists_false, false_or] at h
  obtain ⟨_, mid, hmid, _, rfl⟩ := h
  unfold peersAction at hmid
  simp only at hmid
  split at hmid
  · obtain ⟨⟨enrolled, token⟩, henroll, hmid⟩ := Except.bind_eq_ok.mp hmid
    cases hmid
    exact .quiet (quiet_enroll henroll)
  · exact .quiet (quiet_heartbeat hmid)
  · cases hmid
    exact .quiet (.refl _)

theorem body_cases {call : Call T} {closed : Bool} (h : body lib call db now closed = .ok db') :
    Acted lib call db now db' := by
  unfold body at h
  split at h
  · exact sendBody_cases h
  · exact inboxBody_cases h
  · exact peersBody_cases h

/-- A call changed nothing, or its transaction was prepared and its action taken. A refused action
leaves both ledgers as the preparation left them. -/
theorem perform_cases {call : Call T} (h : perform lib db call = db') :
    db' = db ∨ ∃ now mid, Prepared lib call db now mid ∧ Acted lib call mid now db' := by
  unfold perform at h
  split at h
  · next committed refusal htransact =>
    subst h
    right
    unfold transact at htransact
    obtain ⟨⟨mid, now, closed⟩, hprepare, htransact⟩ := Except.bind_eq_ok.mp htransact
    refine ⟨now, mid, prepare_ok hprepare, ?_⟩
    simp only at htransact
    split at htransact
    · next hbody =>
      cases htransact
      exact body_cases hbody
    · obtain ⟨counted, hcount, htransact⟩ := Except.bind_eq_ok.mp htransact
      cases htransact
      exact .quiet (quiet_countRefusal hcount)
    · cases htransact
  · exact .inl h.symm

end

end TrwMcp.Comms
