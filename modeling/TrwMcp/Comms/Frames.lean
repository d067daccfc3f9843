import TrwMcp.Comms.Mailbox

/-!
# What leaves the two handoff ledgers alone

Most statements of the mailbox touch neither the AHR events nor the three handoff facts, and never
what an admitted row says. `Quiet` is that relation between the mailbox before and after; every
operation that is not a handoff write has it, one lemma an operation.
-/

namespace TrwMcp.Comms

open Handoff Lib

/-- The facts a handoff action records. -/
def Fact.isHandoff : Fact → Bool
  | accepted | reported | completed => true
  | admitted | fetchPrepared | acked | expired => false

section

variable {T : Type}

/-- What a row says from its admission on. -/
def Admission.identity (a : Admission T) : Admission T :=
  { a with body := "", recipientIncarnation := "", state := .pending, deliveryCount := 0 }

/-- The AHR events are the same. -/
structure SameEvents (db db' : Db T) : Prop where
  events : db'.ahrEvents = db.ahrEvents
  written : db'.written = db.written

namespace SameEvents

theorem refl (db : Db T) : SameEvents db db := ⟨rfl, rfl⟩

theorem trans {db₁ db₂ db₃ : Db T} (h : SameEvents db₁ db₂) (h' : SameEvents db₂ db₃) :
    SameEvents db₁ db₃ :=
  ⟨h'.events.trans h.events, h'.written.trans h.written⟩

end SameEvents

/-- Every row is still there and says the same. -/
def KeepsRows (db db' : Db T) : Prop :=
  ∀ id a, Dict.lookup db.admissions id = some a →
    ∃ a', Dict.lookup db'.admissions id = some a' ∧ a'.identity = a.identity

theorem KeepsRows.of_eq {db db' : Db T} (h : db'.admissions = db.admissions) : KeepsRows db db' :=
  fun _ a ha => ⟨a, by rw [h, ha], rfl⟩

/-- Both handoff ledgers are the same, and every row says what it said. -/
structure Quiet (db db' : Db T) : Prop extends SameEvents db db' where
  reports : db'.handoffReports = db.handoffReports
  facts : ∀ id fact, fact.isHandoff → factAt db' id fact = factAt db id fact
  rows : KeepsRows db db'

namespace Quiet

variable {db db' db₁ db₂ db₃ : Db T}

theorem refl (db : Db T) : Quiet db db := ⟨.refl db, rfl, fun _ _ _ => rfl, .of_eq rfl⟩

theorem trans (h : Quiet db₁ db₂) (h' : Quiet db₂ db₃) : Quiet db₁ db₃ := by
  refine ⟨h.toSameEvents.trans h'.toSameEvents, h'.reports.trans h.reports, ?_, ?_⟩
  · intro id fact hf
    rw [h'.facts id fact hf, h.facts id fact hf]
  · intro id a ha
    obtain ⟨b, hb, hab⟩ := h.rows id a ha
    obtain ⟨c, hc, hbc⟩ := h'.rows id b hb
    exact ⟨c, hc, hbc.trans hab⟩

theorem of_eq (hevents : db'.ahrEvents = db.ahrEvents) (hwritten : db'.written = db.written)
    (hreports : db'.handoffReports = db.handoffReports) (hfacts : db'.milestones = db.milestones)
    (hrows : db'.admissions = db.admissions) : Quiet db db' :=
  ⟨⟨hevents, hwritten⟩, hreports, fun _ _ _ => by rw [factAt, factAt, hfacts], .of_eq hrows⟩

theorem foldl {α : Type} {f : Db T → α → Db T} (h : ∀ db x, Quiet db (f db x)) (xs : List α)
    (db : Db T) : Quiet db (xs.foldl f db) := by
  induction xs generalizing db with
  | nil => exact .refl db
  | cons x xs ih => exact (h db x).trans (ih _)

theorem foldlM {α : Type} {f : Db T → α → Mail (Db T)}
    (h : ∀ db x db', f db x = .ok db' → Quiet db db') {xs : List α}
    (hok : xs.foldlM f db = .ok db') : Quiet db db' :=
  Except.foldlM_invariant (I := Quiet db) (fun _ x _ _ hq hx => hq.trans (h _ x _ hx)) (.refl db) hok

end Quiet

/-! ## Statements -/

theorem quiet_updateGroup (db : Db T) (groupId : String) (f : Group T → Group T) :
    Quiet db (updateGroup db groupId f) := .of_eq rfl rfl rfl rfl rfl

theorem quiet_mapAdmissions (db : Db T) (f : String → Admission T → Admission T)
    (hf : ∀ id a, (f id a).identity = a.identity) :
    Quiet db { db with admissions := Dict.mapValues f db.admissions } := by
  refine ⟨⟨rfl, rfl⟩, rfl, fun _ _ _ => rfl, ?_⟩
  intro id a ha
  exact ⟨f id a, by simp [Dict.lookup_mapValues, ha], hf id a⟩

theorem quiet_updateAdmission (db : Db T) (id : String) {f : Admission T → Admission T}
    (hf : ∀ a, (f a).identity = a.identity) : Quiet db (updateAdmission db id f) := by
  refine quiet_mapAdmissions db _ fun k a => ?_
  split
  · exact hf a
  · rfl

theorem insertMilestone_ok {db db' : Db T} {id : String} {fact : Fact} {now : T}
    (h : insertMilestone db id fact now = .ok db') :
    factAt db id fact = none ∧
      db' = { db with milestones := Dict.set db.milestones (id, fact) now } := by
  unfold insertMilestone at h
  split at h
  · cases h
  · next hnone =>
    cases h
    exact ⟨by simpa [Dict.has, factAt] using hnone, rfl⟩

theorem factAt_set (db : Db T) (id id' : String) (fact fact' : Fact) (now : T) :
    factAt { db with milestones := Dict.set db.milestones (id, fact) now } id' fact' =
      if (id', fact') = (id, fact) then some now else factAt db id' fact' :=
  Dict.lookup_set _ _ _ _

theorem quiet_insertMilestone {db db' : Db T} {id : String} {fact : Fact} {now : T}
    (hfact : fact.isHandoff = false) (h : insertMilestone db id fact now = .ok db') :
    Quiet db db' := by
  obtain ⟨_, rfl⟩ := insertMilestone_ok h
  refine ⟨⟨rfl, rfl⟩, rfl, fun id' fact' hf => ?_, .of_eq rfl⟩
  rw [factAt_set, if_neg]
  rintro ⟨⟩
  simp [hfact] at hf

theorem factAt_insertMilestoneOrIgnore (db : Db T) (id id' : String) (fact fact' : Fact) (now : T) :
    factAt (insertMilestoneOrIgnore db id fact now) id' fact' =
      if (id', fact') = (id, fact) then some ((factAt db id fact).getD now)
      else factAt db id' fact' := by
  simp only [insertMilestoneOrIgnore, factAt, Dict.setDefault]
  cases hold : Dict.lookup db.milestones (id, fact) with
  | some t =>
      simp only [Option.getD_some]
      split
      · next heq => rw [heq, hold]
      · rfl
  | none =>
      simp only [Option.getD_none, Dict.lookup_append, Dict.lookup_cons, Dict.lookup_nil]
      by_cases heq : (id', fact') = (id, fact)
      · simp [heq, hold]
      · simp [heq, Ne.symm heq]

theorem quiet_insertMilestoneOrIgnore (db : Db T) (id : String) {fact : Fact} (now : T)
    (hfact : fact.isHandoff = false) : Quiet db (insertMilestoneOrIgnore db id fact now) := by
  refine ⟨⟨rfl, rfl⟩, rfl, fun id' fact' hf => ?_, .of_eq rfl⟩
  rw [factAt_insertMilestoneOrIgnore, if_neg]
  rintro ⟨⟩
  simp [hfact] at hf

theorem quiet_countRefusal {db db' : Db T} {groupId reason : String}
    (h : countRefusal db groupId reason = .ok db') : Quiet db db' := by
  unfold countRefusal at h
  split at h
  · cases h
  · cases h
    exact .of_eq rfl rfl rfl rfl rfl

theorem quiet_insertAdmission {db db' : Db T} {id : String} {row : Admission T}
    (h : insertAdmission db id row = .ok db') : Quiet db db' := by
  unfold insertAdmission at h
  split at h
  · cases h
  · next hnew =>
    simp only [Bool.or_eq_true, not_or, Bool.not_eq_true] at hnew
    refine Quiet.trans ?_ (quiet_insertMilestone rfl h)
    refine Quiet.trans ?_ (quiet_updateGroup _ _ _)
    refine ⟨⟨rfl, rfl⟩, rfl, fun _ _ _ => rfl, fun id' a ha => ⟨a, ?_, rfl⟩⟩
    have hne : id' ≠ id := by
      rintro rfl
      simp [Dict.has, ha] at hnew
    rw [Dict.lookup_set_ne _ hne, ha]

theorem quiet_ensureGroup {db db' : Db T} {binding : CallerBinding} {now : T} {config : Config}
    (h : ensureGroup db binding now config = .ok db') : Quiet db db' := by
  unfold ensureGroup at h
  simp only at h
  split at h
  · cases h
  · cases h
    exact .of_eq rfl rfl rfl rfl rfl

theorem quiet_prepareFetch (db : Db T) (rows : List (Row T)) (now : T) (incarnation : String) :
    Quiet db (prepareFetch db rows now incarnation) := by
  refine Quiet.foldl (fun db row => ?_) rows db
  have hfact := @quiet_insertMilestoneOrIgnore T db row.1 .fetchPrepared now rfl
  simp only
  split
  · exact hfact.trans (quiet_updateAdmission _ _ fun _ => rfl)
  · exact hfact

theorem quiet_acknowledge {db db' : Db T} {rows : List (Row T)} {now : T}
    (h : acknowledge db rows now = .ok db') : Quiet db db' := by
  refine Quiet.foldlM (fun db row db' hrow => ?_) h
  split at hrow
  · cases hrow
    exact .refl _
  · obtain ⟨mid, hmid, hrow⟩ := Except.bind_eq_ok.mp hrow
    cases hrow
    exact (quiet_insertMilestone rfl hmid).trans (quiet_updateAdmission _ _ fun _ => rfl)

/-! ## The clock and the endpoints -/

variable [Clock T]

theorem quiet_touchGroupTime (db : Db T) (groupId : String) (now : T) :
    Quiet db (touchGroupTime db groupId now) := quiet_updateGroup _ _ _

theorem quiet_renew (db : Db T) (binding : CallerBinding) (now : T) (ttl : Nat) :
    Quiet db (renew db binding now ttl) := .of_eq rfl rfl rfl rfl rfl

theorem quiet_enroll {db db' : Db T} {memory : Memory} {binding : CallerBinding}
    {token incarnation : String} {now : T} {ttl : Nat}
    (h : (enroll db memory binding token now ttl).2 = .ok (db', incarnation)) : Quiet db db' := by
  unfold enroll at h
  split at h
  · cases h
  · simp only at h
    split at h
    · cases h
    · cases h
      exact .of_eq rfl rfl rfl rfl rfl

theorem quiet_heartbeat {db db' : Db T} {memory : Memory} {binding : CallerBinding} {now : T}
    {ttl : Nat} (h : (heartbeat db memory binding now ttl).2 = .ok db') : Quiet db db' := by
  unfold heartbeat at h
  split at h
  · cases h
  · cases h
    exact quiet_renew _ _ _ _

theorem quiet_receiverIncarnation {db db' : Db T} {memory : Memory} {binding : CallerBinding}
    {mine : String} {now : T} {ttl : Nat} {renews : Bool}
    (h : (receiverIncarnation db memory binding now ttl renews).2 = .ok (db', mine)) :
    Quiet db db' := by
  unfold receiverIncarnation at h
  split at h
  · cases h
  · cases h
    split
    · exact quiet_renew _ _ _ _
    · exact .refl _

theorem quiet_touch {db db' : Db T} {memory : Memory} {binding : CallerBinding} {now : T}
    {ttl : Nat} {refuse : Bool} (h : (touch db memory binding now ttl refuse).2 = .ok db') :
    Quiet db db' := by
  unfold touch at h
  split at h
  · simp only at h
    split at h
    · cases h
      exact quiet_renew _ _ _ _
    · cases h
      exact .refl _
  · split at h
    · cases h
    · simp only at h
      cases h
      split
      · exact quiet_renew _ _ _ _
      · exact .refl _

/-! ## Messages -/

omit [Clock T] in
theorem quiet_expireWhere (db : Db T) (groupId : String) (now : T) (due : Admission T → Bool) :
    Quiet db (expireWhere db groupId now due) := by
  have hfacts := Quiet.foldl
    (fun db (m : Row T) => @quiet_insertMilestoneOrIgnore T db m.1 .expired now rfl)
    (db.admissions.filter fun m =>
      m.2.groupId == groupId && m.2.state == .pending && due m.2) db
  refine hfacts.trans (quiet_mapAdmissions _ _ fun _ a => ?_)
  split <;> rfl

theorem quiet_expireDue (db : Db T) (groupId : String) (now : T) (terminal : List String) :
    Quiet db (expireDue db groupId now terminal) :=
  (quiet_expireWhere db groupId now _).trans
    (Quiet.foldl (fun db _ => quiet_expireWhere db groupId now _) _ _)

theorem quiet_tombstoneDue (db : Db T) (groupId : String) (now : T) (grace : Nat) :
    Quiet db (tombstoneDue db groupId now grace) := by
  refine quiet_mapAdmissions _ _ fun _ a => ?_
  split <;> rfl

variable {lib : Stdlib}

theorem quiet_admitMessage {env : Surroundings} {db db' : Db T} {snapshot : CallerSnapshot}
    {e : Envelope} {now : T} {ttl : Nat} {live : Bool} {row : Row T}
    (h : admitMessage lib env db snapshot e now ttl live = .ok (db', row)) : Quiet db db' := by
  simp only [admitMessage, Except.bind_eq_ok] at h
  obtain ⟨_, _, h⟩ := h
  split at h
  · split at h
    · cases h
      exact .refl _
    · cases h
  · obtain ⟨_, _, inserted, hins, h⟩ := by simpa only [Except.bind_eq_ok] using h
    cases h
    exact quiet_insertAdmission hins

theorem quiet_notify {env : Surroundings} {db db' : Db T} {snapshot : CallerSnapshot}
    {scope : String} {notice : Notice} {now : T} {limit ttl : Nat} {rows : List (Row T)}
    (h : notify lib env db snapshot scope notice now limit ttl = .ok (db', rows)) :
    Quiet db db' := by
  simp only [notify, Except.bind_eq_ok, Except.pure_eq_ok, Except.throw_ne_ok, ite_eq_iff,
    false_and, and_false, exists_false, false_or] at h
  obtain ⟨_, _, _, retained, _, reached, hreached, _, rfl⟩ := h
  refine Except.foldlM_invariant (I := fun acc => Quiet db acc.1) ?_ (Quiet.refl db) hreached
  intro acc peer acc' _ hq hstep
  split at hstep
  · next hadmit =>
    cases hstep
    exact hq.trans (quiet_admitMessage hadmit)
  · split at hstep
    · cases hstep
      exact hq
    · cases hstep
  · cases hstep

omit [Clock T] in
theorem quiet_readPage {db db' : Db T} {action : InboxAction} {rows : List (Row T)}
    {incarnation : String} {now : T} {room : Option Nat}
    (h : readPage lib db action rows incarnation now room = .ok db') : Quiet db db' := by
  cases room with
  | none => cases h
  | some n =>
      have hpage : prepareFetch db (rows.take n) now incarnation = db' ∨ db = db' := by
        simp only [readPage, Except.bind_eq_ok, Except.pure_eq_ok, Except.throw_ne_ok, ite_eq_iff,
          false_and, and_false, exists_false, false_or] at h
        tauto
      rcases hpage with rfl | rfl
      · exact quiet_prepareFetch _ _ _ _
      · exact .refl _

end

end TrwMcp.Comms
