import TrwMcp.Comms.AhrReplay

/-!
# The AHR actions keep the stored logs coherent

Each action rebuilds one log, and leaves the mailbox as it is or appends one event to that log
(`Wrote`). What is appended reads back to the log it was written with: an event without a reference
as it is, a record from its own row, bytes from nothing, and a successor from the table of offered
records.
-/

namespace TrwMcp.Comms

open Handoff Lib

section

variable {lib : Stdlib} {offered : Offered} {log log' : AhrLog} {T : Type} {db db' : Db T}
  {hid messageId event : String} {actor : Json} {fields : List (String × Json)}

/-- One event was appended to the log, and it reads back. -/
def Wrote (lib : Stdlib) (offered : Offered) (db : Db T) (log : AhrLog) (messageId event : String)
    (db' : Db T) : Prop :=
  ∃ target record fields ev row log',
    Appended lib db log messageId event target record fields ev row log' db' ∧
      ReadsBackAs lib offered log ev record log'

theorem Coherent.wrote (hc : Coherent lib offered db) (hlog : rebuild lib db hid = .ok log)
    (h : Wrote lib offered db log messageId event db') : Kept lib offered db db' := by
  obtain ⟨_, _, _, _, _, _, ha, hback⟩ := h
  exact hc.append hlog ha hback

variable [Clock T] {env : Surroundings} {now : T}

theorem ref_canon {ms : List (String × Json)} : (Json.obj ms).canon ≠ .null := by simp

theorem readsBack_noRef {ev : Json} {record : Option ByteArray} (hb : EventOf event fields ev)
    (href : Dict.lookup fields "ref" = none) (hstep : step lib log ev none = .ok (log', [])) :
    ReadsBackAs lib offered log ev record log' := by
  refine ⟨none, targetFrom_noRef hb.listed.dict ?_, hstep⟩
  rw [hb.ref, href]
  rfl

theorem wrote_noRef (hf : EventFields fields) (href : Dict.lookup fields "ref" = none)
    (ha : Distinct actor)
    (h : append lib env db log messageId event actor now none none fields = .ok db') :
    Wrote lib offered db log messageId event db' := by
  obtain ⟨ev, row, log', happ⟩ := append_ok hf ha h
  exact ⟨none, none, fields, ev, row, log', happ, readsBack_noRef happ.built href happ.admitted⟩

theorem wrote_record {doc : Json} {raw : ByteArray} {d uri : String} (hf : EventFields fields)
    (href : Dict.lookup fields "ref" = some (recordRef uri d)) (ha : Distinct actor)
    (hevent : event = "read_back" ∨ event = "reported") (hdoc : Listed doc)
    (hraw : jcs doc = .ok raw) (hd : digest lib doc = .ok d)
    (h : append lib env db log messageId event actor now (some ⟨.record doc, d⟩) (some raw) fields =
      .ok db') : Wrote lib offered db log messageId event db' := by
  obtain ⟨ev, row, log', happ⟩ := append_ok hf ha h
  have hget := happ.built.ref
  rw [href] at hget
  exact ⟨_, _, fields, ev, row, log', happ, _, targetFrom_record happ.built.listed.dict hget ref_canon
    happ.built.kind hevent hdoc hraw hd, happ.admitted⟩

theorem fileRef_get? (relative d : String) :
    (AhrEvents.fileRef relative d).canon.get? "digest" = some (.str d) ∧
      (AhrEvents.fileRef relative d).canon.get? "media_type" = none := by
  have hkeys : (([("uri", .str ("file:" ++ relative)), ("digest", .str d)] :
      List (String × Json)).map (·.1)).Nodup := by simp
  rw [AhrEvents.fileRef, get?_canon hkeys, get?_canon hkeys]
  simp [Json.get?, Dict.lookup_cons, Json.canon]

theorem wrote_bytes {sample : ByteArray} {d relative : String} (hf : EventFields fields)
    (href : Dict.lookup fields "ref" = some (AhrEvents.fileRef relative d)) (ha : Distinct actor)
    (hevent : event ≠ "superseded")
    (h : append lib env db log messageId event actor now (some ⟨.bytes sample, d⟩) none fields =
      .ok db') : Wrote lib offered db log messageId event db' := by
  obtain ⟨ev, row, log', happ⟩ := append_ok hf ha h
  obtain ⟨hdigest, hmedia⟩ := fileRef_get? relative d
  have hget := happ.built.ref
  rw [href] at hget
  refine ⟨_, _, fields, ev, row, log', happ, _, targetFrom_bytes happ.built.listed.dict hget ref_canon
    happ.built.kind hevent hdigest, ?_⟩
  exact step_bytes hget (by simp [hmedia]) happ.admitted

theorem recordRef_uri (uri d : String) :
    (recordRef uri d).canon.get? "uri" = some (.str uri) := by
  have hkeys : (([("uri", .str uri), ("digest", .str d), ("media_type", .str ahrMedia)] :
      List (String × Json)).map (·.1)).Nodup := by simp
  rw [recordRef, get?_canon hkeys]
  simp [Json.get?, Dict.lookup_cons, Json.canon]

theorem wrote_superseded {doc : Json} {d id : String} (ha : Distinct actor)
    (hdoc : offered id = .ok (some doc)) (hd : digest lib doc = .ok d)
    (h : append lib env db log messageId "superseded" actor now (some ⟨.record doc, d⟩) none
      [("ref", recordRef ("trw:ahr/" ++ id) d)] = .ok db') :
    Wrote lib offered db log messageId "superseded" db' := by
  obtain ⟨ev, row, log', happ⟩ := append_ok (eventFields_ref (recordRef_distinct _ _)) ha h
  have hget := happ.built.ref
  rw [Dict.lookup_cons, if_pos rfl] at hget
  exact ⟨_, _, _, ev, row, log', happ, _, targetFrom_superseded happ.built.listed.dict hget ref_canon
    happ.built.kind (recordRef_uri _ _) hdoc hd, happ.admitted⟩

/-! ## Where the documents come from -/

theorem loadRecord_listed {text kind : String} {doc : Json}
    (h : loadRecord lib env text kind = .ok doc) : Listed doc := by
  simp only [loadRecord, Except.bind_eq_ok, Except.pure_eq_ok, Except.throw_ne_ok, ite_eq_iff,
    false_and, and_false, exists_false, false_or] at h
  obtain ⟨⟨_, raw⟩, _, doc', hdoc, _, rfl⟩ := h
  have hloads : loads lib raw = .ok doc' := by
    unfold loadsOrRefuse at hdoc
    split at hdoc
    · cases hdoc
    · cases hdoc
    · exact uncaught_eq_ok.mp hdoc
  obtain ⟨hdistinct, hdict⟩ := loads_ok hloads
  exact hdistinct.listed hdict

theorem onwardOf_listed {sample : ByteArray} {doc : Json}
    (h : AhrEvents.onwardOf lib sample = .ok (some doc)) : Listed doc := by
  unfold AhrEvents.onwardOf at h
  split at h
  · cases h
  · cases h
  · cases h
  · next doc' hloads =>
    split at h
    · cases h
      obtain ⟨hdistinct, hdict⟩ := loads_ok hloads
      exact hdistinct.listed hdict
    · cases h

theorem receiverOf_distinct {receiver : Json} (hl : Listed log.handoff)
    (h : receiverOf log = .ok receiver) : Distinct receiver := by
  simp only [receiverOf, Except.bind_eq_ok, Except.pure_eq_ok] at h
  obtain ⟨recipient, hto, id, hid, kind, hkind, rfl⟩ := h
  have hrecipient := hl.distinct.of_get? (Json.item_ok hto)
  refine .obj (by simp) fun m hm => ?_
  simp only [List.mem_cons, List.not_mem_nil, or_false] at hm
  rcases hm with rfl | rfl
  · exact hrecipient.of_get? (Json.item_ok hid)
  · exact hrecipient.of_get? (Json.item_ok hkind)

theorem storePrincipal_distinct : Distinct storePrincipal := by
  refine .obj (by simp) fun m hm => ?_
  simp only [List.mem_cons, List.not_mem_nil, or_false] at hm
  rcases hm with rfl | rfl <;> exact .str _

/-! ## One action on one handoff -/

/-- The action found the log of the message's handoff, and either it had been done before or it
appended its event. -/
def Acts (lib : Stdlib) (offered : Offered) (db : Db T) (messageId event : String)
    (done : AhrLog → Prop) (db' : Db T) : Prop :=
  ∃ hid log, handoffOf db messageId = some hid ∧ rebuild lib db hid = .ok log ∧
    (db' = db ∧ done log ∨ Wrote lib offered db log messageId event db')

omit [Clock T] in
theorem Coherent.acts {done : AhrLog → Prop} (hc : Coherent lib offered db)
    (h : Acts lib offered db messageId event done db') : Kept lib offered db db' := by
  obtain ⟨hid, log, _, hlog, ⟨rfl, _⟩ | hwrote⟩ := h
  · exact .refl hc
  · exact hc.wrote hlog hwrote

omit [Clock T] in
theorem logged_ok (h : logged lib db messageId = .ok log) :
    ∃ hid, handoffOf db messageId = some hid ∧ rebuild lib db hid = .ok log := by
  unfold logged at h
  split at h
  · cases h
  · next hid hhid => exact ⟨hid, hhid, h⟩

theorem Coherent.readBack {path : String} (hc : Coherent lib offered db)
    (h : AhrEvents.readBack lib env db messageId path now = .ok db') :
    Acts lib offered db messageId "read_back" (fun _ => True) db' := by
  simp only [AhrEvents.readBack, Except.bind_eq_ok, Except.pure_eq_ok, uncaught_eq_ok,
    ite_eq_iff] at h
  obtain ⟨log, hlogged, doc, hload, d, hd, actor, hactor, author, _, h⟩ := h
  obtain ⟨hid, hhid, hlog⟩ := logged_ok hlogged
  have hlisted := (hc.rebuild_eq hlog).2.listed
  refine ⟨hid, log, hhid, hlog, ?_⟩
  rcases h with ⟨_, rfl⟩ | ⟨_, handoffId, _, raw, hraw, happ⟩
  · exact .inl ⟨rfl, trivial⟩
  · exact .inr (wrote_record (eventFields_ref (recordRef_distinct _ _)) rfl
      (receiverOf_distinct hlisted hactor) (.inl rfl) (loadRecord_listed hload) hraw hd happ)

theorem Coherent.accept (hc : Coherent lib offered db)
    (h : AhrEvents.accept lib env db messageId now = .ok db') :
    Acts lib offered db messageId "accepted" isHeld db' := by
  simp only [AhrEvents.accept, Except.bind_eq_ok, Except.pure_eq_ok, uncaught_eq_ok,
    ite_eq_iff] at h
  obtain ⟨log, hlogged, actor, hactor, id, _, h⟩ := h
  obtain ⟨hid, hhid, hlog⟩ := logged_ok hlogged
  have hlisted := (hc.rebuild_eq hlog).2.listed
  refine ⟨hid, log, hhid, hlog, ?_⟩
  rcases h with ⟨⟨hheld, _⟩, rfl⟩ | ⟨_, happ⟩
  · exact .inl ⟨rfl, hheld⟩
  · exact .inr (wrote_noRef eventFields_nil rfl (receiverOf_distinct hlisted hactor) happ)

theorem Coherent.decline {reason : String} (hc : Coherent lib offered db)
    (h : AhrEvents.decline lib env db messageId reason now = .ok db') :
    Acts lib offered db messageId "declined" (·.state = some .declined) db' := by
  simp only [AhrEvents.decline, Except.bind_eq_ok, Except.pure_eq_ok, uncaught_eq_ok,
    ite_eq_iff] at h
  obtain ⟨log, hlogged, h⟩ := h
  obtain ⟨hid, hhid, hlog⟩ := logged_ok hlogged
  have hlisted := (hc.rebuild_eq hlog).2.listed
  refine ⟨hid, log, hhid, hlog, ?_⟩
  rcases h with ⟨hdone, rfl⟩ | ⟨_, actor, hactor, happ⟩
  · exact .inl ⟨rfl, hdone⟩
  · exact .inr (wrote_noRef (eventFields_reason _) rfl (receiverOf_distinct hlisted hactor) happ)

theorem Coherent.withdraw {reason : String} (hc : Coherent lib offered db)
    (h : AhrEvents.withdraw lib env db messageId reason now = .ok db') :
    Acts lib offered db messageId "withdrawn" (·.state = some .withdrawn) db' := by
  simp only [AhrEvents.withdraw, Except.bind_eq_ok, Except.pure_eq_ok, uncaught_eq_ok,
    ite_eq_iff] at h
  obtain ⟨log, hlogged, h⟩ := h
  obtain ⟨hid, hhid, hlog⟩ := logged_ok hlogged
  have hlisted := (hc.rebuild_eq hlog).2.listed
  refine ⟨hid, log, hhid, hlog, ?_⟩
  rcases h with ⟨hdone, rfl⟩ | ⟨_, sender, hsender, happ⟩
  · exact .inl ⟨rfl, hdone⟩
  · exact .inr (wrote_noRef (eventFields_reason _) rfl
      (hlisted.distinct.of_get? (Json.item_ok hsender)) happ)

theorem Coherent.answer {path : String} (hc : Coherent lib offered db)
    (h : AhrEvents.answer lib env db messageId path now = .ok db') :
    Acts lib offered db messageId "answered" (fun _ => True) db' := by
  simp only [AhrEvents.answer, Except.bind_eq_ok, Except.pure_eq_ok, uncaught_eq_ok,
    ite_eq_iff] at h
  obtain ⟨log, hlogged, ⟨relative, sample, found⟩, _, same, _, h⟩ := h
  obtain ⟨hid, hhid, hlog⟩ := logged_ok hlogged
  have hlisted := (hc.rebuild_eq hlog).2.listed
  refine ⟨hid, log, hhid, hlog, ?_⟩
  rcases h with ⟨_, rfl⟩ | ⟨_, sender, hsender, happ⟩
  · exact .inl ⟨rfl, trivial⟩
  · exact .inr (wrote_bytes (eventFields_ref (fileRef_distinct _ _)) rfl
      (hlisted.distinct.of_get? (Json.item_ok hsender)) (by decide) happ)

theorem Coherent.complete (hc : Coherent lib offered db)
    (h : AhrEvents.complete lib env db messageId now = .ok db') :
    Acts lib offered db messageId "completed" (·.state = some .completed) db' := by
  simp only [AhrEvents.complete, Except.bind_eq_ok, Except.pure_eq_ok, uncaught_eq_ok,
    ite_eq_iff] at h
  obtain ⟨log, hlogged, h⟩ := h
  obtain ⟨hid, hhid, hlog⟩ := logged_ok hlogged
  have hlisted := (hc.rebuild_eq hlog).2.listed
  refine ⟨hid, log, hhid, hlog, ?_⟩
  rcases h with ⟨hdone, rfl⟩ | ⟨_, sender, hsender, happ⟩
  · exact .inl ⟨rfl, hdone⟩
  · exact .inr (wrote_noRef eventFields_nil rfl
      (hlisted.distinct.of_get? (Json.item_ok hsender)) happ)

omit [Clock T] in
theorem onwardDigest_ok {onward : Json} {d : String}
    (h : AhrEvents.onwardDigest lib onward = .ok d) : digest lib onward = .ok d := by
  unfold AhrEvents.onwardDigest at h
  split at h
  · cases h
  · exact uncaught_eq_ok.mp h

theorem onwardIn_listed {sample : ByteArray} {doc : Json}
    (h : AhrEvents.onwardIn lib sample = .ok (some doc)) : Listed doc := by
  unfold AhrEvents.onwardIn at h
  split at h
  · cases h
  · exact onwardOf_listed h

theorem reportFile_wrote {outcome relative found bound : String} {sample : ByteArray}
    (hl : Listed log.handoff)
    (h : AhrEvents.reportFile lib env db log messageId outcome relative sample found bound now =
      .ok db') : Wrote lib offered db log messageId "reported" db' := by
  simp only [AhrEvents.reportFile, Except.bind_eq_ok, uncaught_eq_ok, Except.throw_ne_ok,
    ite_eq_iff, and_false, false_and, exists_false, false_or] at h
  obtain ⟨_, actor, hactor, happ⟩ := h
  exact wrote_bytes (eventFields_report (fileRef_distinct _ _) _) rfl
    (receiverOf_distinct hl hactor) (by decide) happ

theorem reportOnward_wrote {groupId outcome relative found bound : String} {onward : Json}
    (hl : Listed log.handoff) (honward : Listed onward)
    (h : AhrEvents.reportOnward lib env db log groupId messageId outcome relative onward found bound
      now = .ok db') : Wrote lib offered db log messageId "reported" db' := by
  simp only [AhrEvents.reportOnward, Except.bind_eq_ok, uncaught_eq_ok, Except.throw_ne_ok,
    ite_eq_iff, and_false, false_and, exists_false, false_or] at h
  obtain ⟨d, hd, _, _, _, _, actor, hactor, raw, hraw, happ⟩ := h
  exact wrote_record (eventFields_report (recordRef_distinct _ _) _) rfl
    (receiverOf_distinct hl hactor) (.inr rfl) honward hraw (onwardDigest_ok hd) happ

theorem Coherent.report {groupId nextRead outcome : String} (hc : Coherent lib offered db)
    (h : AhrEvents.report lib env db groupId messageId nextRead outcome now = .ok db') :
    Acts lib offered db messageId "reported"
      (fun log => log.state = some .reported ∨ log.state = some .completed) db' := by
  simp only [AhrEvents.report, Except.bind_eq_ok, Except.pure_eq_ok, ite_eq_iff] at h
  obtain ⟨log, hlogged, h⟩ := h
  obtain ⟨hid, hhid, hlog⟩ := logged_ok hlogged
  have hlisted := (hc.rebuild_eq hlog).2.listed
  refine ⟨hid, log, hhid, hlog, ?_⟩
  rcases h with ⟨hdone, rfl⟩ | ⟨_, h⟩
  · exact .inl ⟨rfl, hdone⟩
  · right
    split at h
    · cases h
    · next path bound _ =>
      obtain ⟨⟨relative, sample, found⟩, _, h⟩ := Except.bind_eq_ok.mp h
      obtain ⟨onward, honward, h⟩ := Except.bind_eq_ok.mp h
      cases onward with
      | none => exact reportFile_wrote hlisted h
      | some onward => exact reportOnward_wrote hlisted (onwardIn_listed honward) h

end

end TrwMcp.Comms
