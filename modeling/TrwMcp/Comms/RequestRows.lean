import TrwMcp.Comms.Steps

/-!
# What leaves the admitted rows alone

Only an admission adds a row and only a tombstone drops a body. `SameRows` is the relation every
other statement has: the same rows in the same order, each saying the same with the same body.
-/

namespace TrwMcp.Comms

open Handoff Lib

section

variable {T : Type}

/-- What a row says, its body included. -/
def Admission.core (a : Admission T) : Admission T :=
  { a with recipientIncarnation := "", state := .pending, deliveryCount := 0 }

/-- The same rows, each with the same body. -/
def SameRows (db db' : Db T) : Prop :=
  db'.admissions.map (fun m => (m.1, m.2.core)) = db.admissions.map fun m => (m.1, m.2.core)

namespace SameRows

variable {db db' db₁ db₂ db₃ : Db T}

theorem refl (db : Db T) : SameRows db db := rfl

theorem trans (h : SameRows db₁ db₂) (h' : SameRows db₂ db₃) : SameRows db₁ db₃ :=
  Eq.trans h' h

theorem of_eq (h : db'.admissions = db.admissions) : SameRows db db' := by
  rw [SameRows, h]

theorem foldl {α : Type} {f : Db T → α → Db T} (h : ∀ db x, SameRows db (f db x)) (xs : List α)
    (db : Db T) : SameRows db (xs.foldl f db) := by
  induction xs generalizing db with
  | nil => exact .refl db
  | cons x xs ih => exact (h db x).trans (ih _)

theorem foldlM {α : Type} {f : Db T → α → Mail (Db T)}
    (h : ∀ db x db', f db x = .ok db' → SameRows db db') {xs : List α}
    (hok : xs.foldlM f db = .ok db') : SameRows db db' :=
  Except.foldlM_invariant (I := SameRows db) (fun _ x _ _ hs hx => hs.trans (h _ x _ hx)) (.refl db)
    hok

theorem of_map (db : Db T) (f : String → Admission T → Admission T)
    (hf : ∀ id a, (f id a).core = a.core) :
    SameRows db { db with admissions := Dict.mapValues f db.admissions } := by
  unfold SameRows Dict.mapValues
  rw [List.map_map]
  refine List.map_congr_left fun m _ => ?_
  simp only [Function.comp_apply, hf]

end SameRows

variable {db db' : Db T}

theorem sameRows_insertMilestone {id : String} {fact : Fact} {now : T}
    (h : insertMilestone db id fact now = .ok db') : SameRows db db' := by
  obtain ⟨_, rfl⟩ := insertMilestone_ok h
  exact .of_eq rfl

theorem sameRows_countRefusal {groupId reason : String}
    (h : countRefusal db groupId reason = .ok db') : SameRows db db' := by
  unfold countRefusal at h
  split at h
  · cases h
  · cases h
    exact .of_eq rfl

theorem sameRows_updateAdmission (db : Db T) (id : String) {f : Admission T → Admission T}
    (hf : ∀ a, (f a).core = a.core) : SameRows db (updateAdmission db id f) := by
  refine .of_map db _ fun k a => ?_
  split
  · exact hf a
  · rfl

theorem sameRows_acknowledge {rows : List (Row T)} {now : T}
    (h : acknowledge db rows now = .ok db') : SameRows db db' := by
  refine SameRows.foldlM (fun db row db' hrow => ?_) h
  split at hrow
  · cases hrow
    exact .refl _
  · obtain ⟨mid, hmid, hrow⟩ := Except.bind_eq_ok.mp hrow
    cases hrow
    exact (sameRows_insertMilestone hmid).trans (sameRows_updateAdmission _ _ fun _ => rfl)

theorem sameRows_recordFact {rows : List (Row T)} {recorded : String → Bool} {fact : Fact} {now : T}
    (h : recordFact db rows recorded fact now = .ok db') : SameRows db db' := by
  refine SameRows.foldlM (fun db row db' hrow => ?_) h
  split at hrow
  · cases hrow
    exact .refl _
  · exact sameRows_insertMilestone hrow

theorem sameRows_prepareFetch (db : Db T) (rows : List (Row T)) (now : T) (incarnation : String) :
    SameRows db (prepareFetch db rows now incarnation) := by
  refine SameRows.foldl (fun db row => ?_) rows db
  have hfact : SameRows db (insertMilestoneOrIgnore db row.1 .fetchPrepared now) := .of_eq rfl
  simp only
  split
  · exact hfact.trans (sameRows_updateAdmission _ _ fun _ => rfl)
  · exact hfact

theorem sameRows_ensureGroup {binding : CallerBinding} {now : T} {config : Config}
    (h : ensureGroup db binding now config = .ok db') : SameRows db db' := by
  unfold ensureGroup at h
  simp only at h
  split at h
  · cases h
  · cases h
    exact .of_eq rfl

/-! ## The clock and the endpoints -/

variable [Clock T] {now : T}

theorem sameRows_touch {memory : Memory} {binding : CallerBinding} {ttl : Nat} {refuse : Bool}
    (h : (touch db memory binding now ttl refuse).2 = .ok db') : SameRows db db' := by
  unfold touch at h
  split at h
  · simp only at h
    split at h
    · cases h
      exact .of_eq rfl
    · cases h
      exact .refl _
  · split at h
    · cases h
    · simp only at h
      cases h
      split
      · exact .of_eq rfl
      · exact .refl _

theorem sameRows_receiverIncarnation {memory : Memory} {binding : CallerBinding} {mine : String}
    {ttl : Nat} {renews : Bool}
    (h : (receiverIncarnation db memory binding now ttl renews).2 = .ok (db', mine)) :
    SameRows db db' := by
  unfold receiverIncarnation at h
  split at h
  · cases h
  · cases h
    split
    · exact .of_eq rfl
    · exact .refl _

variable {lib : Stdlib}

theorem sameRows_renewCaller {call : Call T} {args : InboxArgs} {ttl : Nat}
    {incarnation : Option String}
    (h : renewCaller call args db now ttl = .ok (db', incarnation)) : SameRows db db' := by
  unfold renewCaller at h
  simp only at h
  split at h
  · obtain ⟨⟨mid, mine⟩, hmid, h⟩ := Except.bind_eq_ok.mp h
    cases h
    exact sameRows_receiverIncarnation hmid
  · obtain ⟨mid, hmid, h⟩ := Except.bind_eq_ok.mp h
    cases h
    exact sameRows_touch hmid

theorem sameRows_peersAction {call : Call T} {action : PeerAction}
    (h : peersAction call action db now = .ok db') : SameRows db db' := by
  unfold peersAction at h
  simp only at h
  split at h
  · obtain ⟨⟨enrolled, token⟩, henroll, h⟩ := Except.bind_eq_ok.mp h
    cases h
    unfold enroll at henroll
    split at henroll
    · cases henroll
    · simp only at henroll
      split at henroll
      · cases henroll
      · cases henroll
        exact .of_eq rfl
  · unfold heartbeat at h
    split at h
    · cases h
    · cases h
      exact .of_eq rfl
  · cases h
    exact .refl _

/-! ## Milestones and pages -/

omit [Clock T] in
theorem sameRows_milestoneWrite {binding : CallerBinding} {action : InboxAction} {ids : List String}
    {nextRead : Option String}
    (h : milestoneWrite lib db binding action ids nextRead now = .ok db') : SameRows db db' := by
  unfold milestoneWrite at h
  split at h
  · simp only [accept, Except.bind_eq_ok, Except.throw_ne_ok, ite_eq_iff, false_and,
      and_false, exists_false, false_or] at h
    obtain ⟨checked, _, _, acked, hacked, h⟩ := h
    exact (sameRows_acknowledge hacked).trans (sameRows_recordFact h)
  · simp only [report, Except.bind_eq_ok, Except.throw_ne_ok, ite_eq_iff, false_and,
      and_false, exists_false, false_or] at h
    obtain ⟨_, _, _, _, ⟨_, h⟩ | ⟨_, h⟩⟩ := h
    · unfold repeatReport at h
      split at h
      · split at h
        · cases h
          exact .refl _
        · cases h
      · cases h
    · simp only [insertReport, Except.bind_eq_ok, Except.pure_eq_ok, Except.throw_ne_ok,
        ite_eq_iff, false_and, and_false, exists_false, false_or] at h
      obtain ⟨mid, hmid, _, rfl⟩ := h
      exact (sameRows_insertMilestone hmid).trans (.of_eq rfl)
  · simp only [complete, Except.bind_eq_ok, Except.throw_ne_ok, ite_eq_iff, false_and,
      and_false, exists_false, false_or] at h
    obtain ⟨checked, _, _, h⟩ := h
    exact sameRows_recordFact h
  · cases h
    exact .refl _

omit [Clock T] in
theorem sameRows_readPage {action : InboxAction} {rows : List (Row T)} {incarnation : String}
    {room : Option Nat} (h : readPage lib db action rows incarnation now room = .ok db') :
    SameRows db db' := by
  cases room with
  | none => cases h
  | some n =>
      have hpage : prepareFetch db (rows.take n) now incarnation = db' ∨ db = db' := by
        simp only [readPage, Except.bind_eq_ok, Except.pure_eq_ok, Except.throw_ne_ok, ite_eq_iff,
          false_and, and_false, exists_false, false_or] at h
        tauto
      rcases hpage with rfl | rfl
      · exact sameRows_prepareFetch _ _ _ _
      · exact .refl _

/-! ## AHR events -/

variable {env : Surroundings}

theorem sameRows_append {log : AhrLog} {messageId event : String} {actor : Json}
    {target : Option Target} {record : Option ByteArray} {fields : List (String × Json)}
    (h : append lib env db log messageId event actor now target record fields = .ok db') :
    SameRows db db' := by
  unfold append at h
  obtain ⟨ev, _, h⟩ := Except.bind_eq_ok.mp h
  obtain ⟨⟨log', errs⟩, _, h⟩ := Except.bind_eq_ok.mp h
  cases errs with
  | cons e errs => cases h
  | nil =>
      obtain ⟨row, _, h⟩ := Except.bind_eq_ok.mp h
      obtain ⟨inserted, hins, h⟩ := Except.bind_eq_ok.mp h
      cases h
      obtain ⟨_, rfl⟩ := insertAhrEvent_ok hins
      exact .of_eq rfl

theorem sameRows_supersedeListed {groupId : String} {record listed : Json}
    (h : supersedeListed lib env groupId record now db listed = .ok db') : SameRows db db' := by
  simp only [supersedeListed, supersede, Except.bind_eq_ok, Except.pure_eq_ok, Except.throw_ne_ok,
    ite_eq_iff, false_and, and_false, exists_false, false_or] at h
  obtain ⟨_, _, ⟨_, log, _, _, _, h⟩ | ⟨_, rfl⟩⟩ := h
  · rcases h with ⟨_, _, _, _, _, _, _, _, _, _, _, h⟩ | ⟨_, _, _, _, rfl⟩
    · exact sameRows_append h
    · exact .refl _
  · exact .refl _

theorem sameRows_offer {groupId messageId : String} {record : Json}
    (h : offer lib env db groupId messageId record now = .ok db') : SameRows db db' := by
  simp only [offer, Except.bind_eq_ok, Except.throw_ne_ok, ite_eq_iff, false_and, and_false,
    exists_false, false_or] at h
  obtain ⟨_, _, _, handoffId, _, h⟩ := h
  split at h
  · simp only [Except.bind_eq_ok, Except.pure_eq_ok, Except.throw_ne_ok, ite_eq_iff, and_false,
      or_false] at h
    obtain ⟨_, _, _, rfl⟩ := h
    exact .refl _
  · obtain ⟨listed, _, h⟩ := Except.bind_eq_ok.mp h
    obtain ⟨mid, hmid, h⟩ := Except.bind_eq_ok.mp h
    obtain ⟨⟨fresh, errs⟩, _, h⟩ := Except.bind_eq_ok.mp h
    cases fresh with
    | none => cases h
    | some fresh =>
        obtain ⟨_, _, h⟩ := Except.bind_eq_ok.mp h
        obtain ⟨_, _, h⟩ := Except.bind_eq_ok.mp h
        exact (SameRows.foldlM (fun _ _ _ hx => sameRows_supersedeListed hx) hmid).trans
          (sameRows_append h)

theorem sameRows_readBack {messageId path : String}
    (h : AhrEvents.readBack lib env db messageId path now = .ok db') : SameRows db db' := by
  simp only [AhrEvents.readBack, Except.bind_eq_ok, Except.pure_eq_ok, ite_eq_iff] at h
  obtain ⟨_, _, _, _, _, _, _, _, _, _, ⟨_, rfl⟩ | ⟨_, _, _, _, _, h⟩⟩ := h
  · exact .refl _
  · exact sameRows_append h

theorem sameRows_ahrAccept {messageId : String}
    (h : AhrEvents.accept lib env db messageId now = .ok db') : SameRows db db' := by
  simp only [AhrEvents.accept, Except.bind_eq_ok, Except.pure_eq_ok, ite_eq_iff] at h
  obtain ⟨_, _, _, _, _, _, ⟨_, rfl⟩ | ⟨_, h⟩⟩ := h
  · exact .refl _
  · exact sameRows_append h

theorem sameRows_ahrDecline {messageId reason : String}
    (h : AhrEvents.decline lib env db messageId reason now = .ok db') : SameRows db db' := by
  simp only [AhrEvents.decline, Except.bind_eq_ok, Except.pure_eq_ok, ite_eq_iff] at h
  obtain ⟨_, _, ⟨_, rfl⟩ | ⟨_, _, _, h⟩⟩ := h
  · exact .refl _
  · exact sameRows_append h

theorem sameRows_withdraw {messageId reason : String}
    (h : AhrEvents.withdraw lib env db messageId reason now = .ok db') : SameRows db db' := by
  simp only [AhrEvents.withdraw, Except.bind_eq_ok, Except.pure_eq_ok, ite_eq_iff] at h
  obtain ⟨_, _, ⟨_, rfl⟩ | ⟨_, _, _, h⟩⟩ := h
  · exact .refl _
  · exact sameRows_append h

theorem sameRows_answer {messageId path : String}
    (h : AhrEvents.answer lib env db messageId path now = .ok db') : SameRows db db' := by
  simp only [AhrEvents.answer, Except.bind_eq_ok, Except.pure_eq_ok, ite_eq_iff] at h
  obtain ⟨_, _, ⟨_, _, _⟩, _, _, _, ⟨_, rfl⟩ | ⟨_, _, _, h⟩⟩ := h
  · exact .refl _
  · exact sameRows_append h

theorem sameRows_ahrComplete {messageId : String}
    (h : AhrEvents.complete lib env db messageId now = .ok db') : SameRows db db' := by
  simp only [AhrEvents.complete, Except.bind_eq_ok, Except.pure_eq_ok, ite_eq_iff] at h
  obtain ⟨_, _, ⟨_, rfl⟩ | ⟨_, _, _, h⟩⟩ := h
  · exact .refl _
  · exact sameRows_append h

theorem sameRows_ahrReport {groupId messageId nextRead outcome : String}
    (h : AhrEvents.report lib env db groupId messageId nextRead outcome now = .ok db') :
    SameRows db db' := by
  simp only [AhrEvents.report, Except.bind_eq_ok, Except.pure_eq_ok, ite_eq_iff] at h
  obtain ⟨log, _, ⟨_, rfl⟩ | ⟨_, h⟩⟩ := h
  · exact .refl _
  · split at h
    · cases h
    · obtain ⟨⟨relative, sample, found⟩, _, h⟩ := Except.bind_eq_ok.mp h
      obtain ⟨onward, _, h⟩ := Except.bind_eq_ok.mp h
      cases onward with
      | none =>
          simp only [AhrEvents.reportFile, Except.bind_eq_ok, Except.throw_ne_ok, ite_eq_iff,
            false_and, and_false, exists_false, false_or] at h
          obtain ⟨_, _, _, h⟩ := h
          exact sameRows_append h
      | some onward =>
          simp only [AhrEvents.reportOnward, Except.bind_eq_ok, Except.throw_ne_ok, ite_eq_iff,
            false_and, and_false, exists_false, false_or] at h
          obtain ⟨_, _, _, _, _, _, _, _, _, _, h⟩ := h
          exact sameRows_append h

theorem sameRows_ahrOnlyWrite {binding : CallerBinding} {action : InboxAction}
    {messageId value : String}
    (h : ahrOnlyWrite lib env db binding action messageId value now = .ok db') :
    SameRows db db' := by
  simp only [ahrOnlyWrite, Except.bind_eq_ok, Except.throw_ne_ok, ite_eq_iff, false_and, and_false,
    exists_false, false_or] at h
  obtain ⟨rows, _, _, h⟩ := h
  split at h
  · exact sameRows_readBack h
  · exact sameRows_answer h
  · exact sameRows_withdraw h
  · obtain ⟨mid, hmid, h⟩ := Except.bind_eq_ok.mp h
    exact (sameRows_ahrDecline hmid).trans (sameRows_acknowledge h)

theorem sameRows_ahrWrite {binding : CallerBinding} {action : InboxAction}
    {value nextRead : Option String} {messageId : String}
    (h : ahrWrite lib env binding action value nextRead now db messageId = .ok db') :
    SameRows db db' := by
  unfold ahrWrite at h
  split at h
  · exact sameRows_ahrOnlyWrite h
  · split at h
    · split at h
      · cases h
      · cases h
        exact .refl _
    · split at h
      · exact sameRows_ahrAccept h
      · split at h
        · cases h
        · exact sameRows_ahrReport h
      · exact sameRows_ahrComplete h

theorem sameRows_inboxBody {call : Call T} {args : InboxArgs} {closed : Bool}
    (h : inboxBody lib call args db now closed = .ok db') : SameRows db db' := by
  simp only [inboxBody, Except.bind_eq_ok, Except.throw_ne_ok, ite_eq_iff, false_and,
    and_false, exists_false, false_or] at h
  obtain ⟨_, ⟨mid, incarnation⟩, hmid, _, _, _, h⟩ := h
  refine (sameRows_renewCaller hmid).trans ?_
  simp only [inboxAction, Except.bind_eq_ok, Except.throw_ne_ok, ite_eq_iff, false_and,
    and_false, exists_false, false_or] at h
  obtain ⟨_, ⟨_, h⟩ | ⟨_, _, hrest⟩⟩ := h
  · simp only [handoffAction, Except.bind_eq_ok, Except.throw_ne_ok, ite_eq_iff, false_and,
      and_false, exists_false, false_or] at h
    obtain ⟨ids, _, value, _, _, nextRead, _, _, written, hwritten, h⟩ := h
    exact (sameRows_milestoneWrite hwritten).trans
      (SameRows.foldlM (fun _ _ _ hx => sameRows_ahrWrite hx) h)
  · rcases hrest with ⟨_, _, _, rows, _, _, hack⟩ | ⟨_, _, after, _, group, _, _, hpage⟩
    · exact sameRows_acknowledge hack
    · exact sameRows_readPage hpage

theorem sameRows_peersBody {call : Call T} {action : PeerAction} {fits closed : Bool}
    (h : peersBody call action fits db now closed = .ok db') : SameRows db db' := by
  simp only [peersBody, Except.bind_eq_ok, Except.pure_eq_ok, Except.throw_ne_ok, ite_eq_iff,
    false_and, and_false, exists_false, false_or] at h
  obtain ⟨_, mid, hmid, _, rfl⟩ := h
  exact sameRows_peersAction hmid

/-! ## The preparation of a call -/

omit [Clock T] in
theorem sameRows_expireWhere (db : Db T) (groupId : String) (now : T) (due : Admission T → Bool) :
    SameRows db (expireWhere db groupId now due) := by
  have hfacts : SameRows db ((db.admissions.filter fun m =>
      m.2.groupId == groupId && m.2.state == .pending && due m.2).foldl
        (fun db m => insertMilestoneOrIgnore db m.1 .expired now) db) :=
    SameRows.foldl (fun db (m : Row T) =>
      (.of_eq rfl : SameRows db (insertMilestoneOrIgnore db m.1 .expired now))) _ db
  refine hfacts.trans (.of_map _ _ fun _ a => ?_)
  split <;> rfl

theorem sameRows_expireDue (db : Db T) (groupId : String) (now : T) (terminal : List String) :
    SameRows db (expireDue db groupId now terminal) :=
  (sameRows_expireWhere db groupId now _).trans
    (SameRows.foldl (fun db _ => sameRows_expireWhere db groupId now _) _ _)

/-- In the group no row past its deadline is pending. -/
def NonePastDue (db : Db T) (groupId : String) (now : T) : Prop :=
  ∀ m ∈ db.admissions, m.2.groupId = groupId → m.2.expiresAt ≤ now → m.2.state ≠ .pending

omit [Clock T] in
theorem expireWhere_admissions (db : Db T) (groupId : String) (now : T) (due : Admission T → Bool) :
    (expireWhere db groupId now due).admissions = Dict.mapValues (fun _ a =>
      if a.groupId == groupId && a.state == .pending && due a then { a with state := .expired }
      else a) db.admissions := by
  have hadmissions : ∀ (rows : List (Row T)) (db : Db T),
      (rows.foldl (fun db m => insertMilestoneOrIgnore db m.1 .expired now) db).admissions =
        db.admissions := by
    intro rows
    induction rows with
    | nil => exact fun _ => rfl
    | cons row rows ih => exact fun db => ih _
  unfold expireWhere
  simp only [hadmissions]

theorem NonePastDue.expireWhere {groupId : String} (h : NonePastDue db groupId now)
    (due : Admission T → Bool) : NonePastDue (expireWhere db groupId now due) groupId now := by
  intro m hm hgroup hdue
  rw [expireWhere_admissions, Dict.mapValues, List.mem_map] at hm
  obtain ⟨m, hm, rfl⟩ := hm
  simp only at hgroup hdue ⊢
  split_ifs at hgroup hdue ⊢ with hmatch
  · simp
  · exact h m hm hgroup hdue

theorem nonePastDue_expireWhere (db : Db T) (groupId : String) (now : T) :
    NonePastDue (expireWhere db groupId now fun a => decide (a.expiresAt ≤ now)) groupId now := by
  intro m hm hgroup hdue
  rw [expireWhere_admissions, Dict.mapValues, List.mem_map] at hm
  obtain ⟨m, hm, rfl⟩ := hm
  simp only at hgroup hdue ⊢
  split_ifs at hgroup hdue ⊢ with hmatch
  · simp
  · intro hpending
    exact hmatch (by simp [hgroup, hpending, hdue])

theorem nonePastDue_expireDue (db : Db T) (groupId : String) (now : T) (terminal : List String) :
    NonePastDue (expireDue db groupId now terminal) groupId now := by
  unfold expireDue
  generalize terminal.dedup.insertionSort (· ≤ ·) = members
  have hfirst := nonePastDue_expireWhere db groupId now
  simp only
  generalize expireWhere db groupId now _ = db₁ at hfirst
  induction members generalizing db₁ with
  | nil => exact hfirst
  | cons member members ih => exact ih _ (hfirst.expireWhere _)

end

end TrwMcp.Comms
