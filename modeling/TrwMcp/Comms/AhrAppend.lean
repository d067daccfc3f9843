import TrwMcp.Comms.Frames
import TrwMcp.Comms.AhrRoles
import TrwMcp.Handoff.Listed

/-!
# One appended event

`append` is inverted once: it built an event that reads back as it is (`EventOf`), the replay
admitted it, and its row was added with the log the replay came to. The reference a stored event
resolves to need not be the one it was written with: of bytes the replay only asks whether they are
an AHR record, so `step_bytes` lets an empty sample stand for them.
-/

namespace TrwMcp.Comms

open Handoff Lib

section

variable {lib : Stdlib} {log log' : AhrLog} {ev : Json}

/-! ## References to bytes -/

theorem runArm_bytes (log : AhrLog) (s : Step) (raw : ByteArray) :
    runArm lib log { s with resolved := some (.bytes raw) } =
      runArm lib log { s with resolved := none } := rfl

theorem looksAhr_empty : looksAhr lib ByteArray.empty = false := by
  have htext : String.fromUTF8? ByteArray.empty = some "" := by
    simpa using fromUTF8_toUTF8 ""
  have hparse : parseText plainObject "" = .error .jsonDecodeError := rfl
  have hloads : jsonLoads lib ByteArray.empty = .error .jsonDecodeError := by
    have hutf8 : detectsUtf8 [] = true := rfl
    simp only [jsonLoads, ByteArray.toList_empty, hutf8, if_true, htext, hparse]
  rw [looksAhr, hloads]

theorem refError_bytes {ref : Json} {raw : ByteArray} {d : String}
    (href : ev.get? "ref" = some ref) (hmedia : ref.get? "media_type" ≠ some (.str ahrMedia))
    (h : refError lib ev (some ⟨.bytes raw, d⟩) = .ok none) :
    refError lib ev (some ⟨.bytes ByteArray.empty, d⟩) =
      refError lib ev (some ⟨.bytes raw, d⟩) := by
  have hhidden : looksAhr lib raw = false := by
    simp only [refError, href, Except.bind_eq_ok, Except.pure_eq_ok, ite_eq_iff,
      reduceCtorEq, and_false, false_or] at h
    obtain ⟨media, hmedia', hplain, _⟩ := h
    rw [Json.get_ok hmedia'] at hmedia
    simpa [hmedia] using hplain
  simp only [refError, href, looksAhr_empty, hhidden]

theorem step_bytes {ref : Json} {raw : ByteArray} {d : String} (href : ev.get? "ref" = some ref)
    (hmedia : ref.get? "media_type" ≠ some (.str ahrMedia))
    (h : step lib log ev (some ⟨.bytes raw, d⟩) = .ok (log', [])) :
    step lib log ev (some ⟨.bytes ByteArray.empty, d⟩) = .ok (log', []) := by
  obtain ⟨s, hs⟩ := step_clean h
  have hhas : ev.has "ref" = true := by rw [Json.has, href]; rfl
  rw [← h]
  simp only [step, refError_bytes href hmedia hs.ref, hhas, if_true, Option.map_some, runArm_bytes]

/-! ## The event -/

/-- The fields an event kind adds: a reference, a reason, a reference and an outcome, or none. -/
structure EventFields (fields : List (String × Json)) : Prop where
  keys : fields.map (·.1) ∈ [[], ["ref"], ["reason"], ["ref", "outcome"]]
  values : ∀ m ∈ fields, Distinct m.2

theorem eventFields_nil : EventFields [] := ⟨by simp, by simp⟩

theorem eventFields_reason (reason : String) : EventFields [("reason", .str reason)] :=
  ⟨by simp, by simpa using Distinct.str reason⟩

theorem eventFields_ref {ref : Json} (h : Distinct ref) : EventFields [("ref", ref)] :=
  ⟨by simp, by simpa using h⟩

theorem eventFields_report {ref : Json} (h : Distinct ref) (outcome : String) :
    EventFields [("ref", ref), ("outcome", .str outcome)] := by
  refine ⟨by simp, fun m hm => ?_⟩
  simp only [List.mem_cons, List.not_mem_nil, or_false] at hm
  rcases hm with rfl | rfl
  · exact h
  · exact .str _

theorem recordRef_distinct (uri digest : String) : Distinct (recordRef uri digest) := by
  refine .obj (by simp) fun m hm => ?_
  simp only [List.mem_cons, List.not_mem_nil, or_false] at hm
  rcases hm with rfl | rfl | rfl <;> exact .str _

theorem fileRef_distinct (relative digest : String) :
    Distinct (AhrEvents.fileRef relative digest) := by
  refine .obj (by simp) fun m hm => ?_
  simp only [List.mem_cons, List.not_mem_nil, or_false] at hm
  rcases hm with rfl | rfl <;> exact .str _

/-- The event reads back as it is, and says what it was built from. -/
structure EventOf (event : String) (fields : List (String × Json)) (ev : Json) : Prop where
  listed : Listed ev
  kind : ev.get? "event" = some (.str event)
  ref : ev.get? "ref" = (Dict.lookup fields "ref").map Json.canon

variable {T : Type} [Clock T] {env : Surroundings} {event : String} {actor : Json} {now : T}
  {fields : List (String × Json)}

theorem chainFields_keys {chain : List (String × Json)} (h : chainFields lib log = .ok chain) :
    chain = [] ∨ ∃ d, chain = [("prev_event_digest", .str d)] := by
  unfold chainFields at h
  split at h
  · obtain ⟨d, _, h⟩ := Except.bind_eq_ok.mp h
    cases h
    exact .inr ⟨d, rfl⟩
  · cases h
    exact .inl rfl

theorem newEvent_ok (hfields : EventFields fields) (hactor : Distinct actor)
    (h : newEvent lib env log event actor now fields = .ok ev) : EventOf event fields ev := by
  simp only [newEvent, Except.bind_eq_ok, Except.pure_eq_ok] at h
  obtain ⟨time, _, handoffId, _, chain, hchain, rfl⟩ := h
  generalize heff : (if event = "accepted" then [("effective_at", Json.str time)] else []) = eff
  have heff' : eff = [] ∨ eff = [("effective_at", Json.str time)] := by
    subst heff
    split <;> simp
  have hchain' := chainFields_keys hchain
  set ms : List (String × Json) := _ ++ fields ++ chain ++ eff with hms
  have hkeys : (ms.map (·.1)).Nodup := by
    have hfk := hfields.keys
    simp only [List.mem_cons, List.not_mem_nil, or_false] at hfk
    rw [hms, List.map_append, List.map_append, List.map_append]
    rcases hchain' with rfl | ⟨d, rfl⟩ <;> rcases heff' with rfl | rfl <;>
      rcases hfk with hk | hk | hk | hk <;> rw [hk] <;> simp
  have hvalues : ∀ m ∈ ms, Distinct m.2 := by
    intro m hm
    simp only [hms, List.mem_append, List.mem_cons, List.not_mem_nil, or_false] at hm
    rcases hm with ((hbase | hfield) | hc) | he
    · rcases hbase with rfl | rfl | rfl | rfl | rfl | rfl | rfl | rfl | rfl
      case inr.inr.inr.inr.inr.inr.inl => exact hactor
      case inr.inr.inr.inr.inl => exact .int _
      all_goals exact .str _
    · exact hfields.values m hfield
    · rcases hchain' with rfl | ⟨d, rfl⟩
      · cases hc
      · obtain rfl := List.mem_singleton.mp hc
        exact .str _
    · rcases heff' with rfl | rfl
      · cases he
      · obtain rfl := List.mem_singleton.mp he
        exact .str _
  refine ⟨Distinct.listed (.obj hkeys hvalues) rfl, ?_, ?_⟩
  · rw [get?_canon hkeys]
    simp [Json.get?, hms, Dict.lookup_cons, Json.canon]
  · rw [get?_canon hkeys, Json.get?, Json.members_obj, hms, Dict.lookup_append, Dict.lookup_append,
      Dict.lookup_append]
    have hc : Dict.lookup chain "ref" = none := by
      rcases hchain' with rfl | ⟨d, rfl⟩ <;> simp [Dict.lookup_cons]
    have he : Dict.lookup eff "ref" = none := by
      rcases heff' with rfl | rfl <;> simp [Dict.lookup_cons]
    simp [Dict.lookup_cons, hc, he]

/-! ## The row -/

/-- What `append` did: the event, its row, the log after it and the mailbox. -/
structure Appended (lib : Stdlib) (db : Db T) (log : AhrLog) (messageId event : String)
    (target : Option Target) (record : Option ByteArray) (fields : List (String × Json)) (ev : Json)
    (row : AhrRow) (log' : AhrLog) (db' : Db T) : Prop where
  built : EventOf event fields ev
  admitted : step lib log ev target = .ok (log', [])
  doc : jcs ev = .ok row.eventDoc
  handoffId : log.handoff.getStr? "handoff_id" = some row.handoffId
  subject : log.handoff.getStr? "subject" = some row.subject
  seq : row.seq = log.count + 1
  message : row.messageId = messageId
  kind : row.event = event
  record : row.record = record
  fresh : ∀ r ∈ db.ahrEvents, r.handoffId = row.handoffId → r.seq ≠ row.seq
  result : db' = { db with
    ahrEvents := db.ahrEvents ++ [row]
    written := Dict.set db.written row.handoffId log' }

omit [Clock T] in
theorem insertAhrEvent_ok {db db' : Db T} {row : AhrRow} (h : insertAhrEvent db row = .ok db') :
    (∀ r ∈ db.ahrEvents, r.handoffId = row.handoffId → r.seq ≠ row.seq) ∧
      db' = { db with ahrEvents := db.ahrEvents ++ [row] } := by
  unfold insertAhrEvent at h
  split at h
  · cases h
  · next hnew =>
    cases h
    refine ⟨fun r hr hid hseq => hnew ?_, rfl⟩
    rw [List.any_eq_true]
    exact ⟨r, hr, by simp [hid, hseq]⟩

theorem append_ok {db db' : Db T} {messageId : String} {target : Option Target}
    {record : Option ByteArray} (hfields : EventFields fields) (hactor : Distinct actor)
    (h : append lib env db log messageId event actor now target record fields = .ok db') :
    ∃ ev row log', Appended lib db log messageId event target record fields ev row log' db' := by
  unfold append at h
  obtain ⟨ev, hev, h⟩ := Except.bind_eq_ok.mp h
  obtain ⟨⟨log', errs⟩, hstep, h⟩ := Except.bind_eq_ok.mp h
  rw [uncaught_eq_ok] at hev hstep
  cases errs with
  | cons e errs => cases h
  | nil =>
      obtain ⟨row, hrow, h⟩ := Except.bind_eq_ok.mp h
      obtain ⟨inserted, hins, h⟩ := Except.bind_eq_ok.mp h
      rw [uncaught_eq_ok] at hrow
      cases h
      obtain ⟨hfresh, rfl⟩ := insertAhrEvent_ok hins
      obtain ⟨s, hs⟩ := step_clean hstep
      simp only [eventRow, Except.bind_eq_ok, Except.pure_eq_ok] at hrow
      obtain ⟨handoffId, hid, _, _, _, _, _, _, subject, hsubject, _, _, doc, hdoc, rfl⟩ := hrow
      refine ⟨ev, _, log', newEvent_ok hfields hactor hev, hstep, hdoc, ?_,
        Json.getStr?_of_strItem hsubject, rfl, rfl, rfl, rfl, hfresh, rfl⟩
      rw [Json.getStr?, ← hs.sameHandoff]
      exact Json.getStr?_of_strItem hid

/-! ## What a stored event refers to -/

section

variable {offered : String → Py (Option Json)} {record : Option ByteArray} {ref : Json}

theorem get_of_get? {j : Json} (h : j.isDict) (k : String) : j.get k = .ok (j.get? k) := by
  cases j with
  | obj ms => rfl
  | _ => cases h

theorem item_of_get? {j v : Json} {k : String} (h : j.get? k = some v) : j.item k = .ok v := by
  cases j with
  | obj ms => exact Json.item_obj_some h
  | _ => cases h

theorem loadsDict_listed {doc : Json} {raw : ByteArray} (h : Listed doc) (hraw : jcs doc = .ok raw) :
    loadsDict lib raw = .ok doc := by
  have hd := h.dict
  rw [loadsDict, h.jsonLoads hraw lib]
  cases doc with
  | obj ms => rfl
  | _ => cases hd

theorem removePrefix_append (lead text : String) : removePrefix lead (lead ++ text) = text := by
  have hlead : lead.toList.isPrefixOf (lead.toList ++ text.toList) = true := by simp
  rw [removePrefix, String.toList_append, if_pos hlead, List.drop_left, String.ofList_toList]

theorem targetFrom_noRef (hd : ev.isDict) (h : ev.get? "ref" = none) :
    targetFrom lib offered ev record = .ok none := by
  simp [targetFrom, get_of_get? hd, h, bind, Except.bind, pure, Except.pure]

theorem targetFrom_record {doc : Json} {raw : ByteArray} {d : String} (hd : ev.isDict)
    (h : ev.get? "ref" = some ref) (hne : ref ≠ .null) (hk : ev.get? "event" = some (.str event))
    (hevent : event = "read_back" ∨ event = "reported") (hdoc : Listed doc) (hraw : jcs doc = .ok raw)
    (hdigest : digest lib doc = .ok d) :
    targetFrom lib offered ev (some raw) = .ok (some ⟨.record doc, d⟩) := by
  have hloads : loadsDict lib raw = .ok doc := loadsDict_listed hdoc hraw
  have hin : [Json.str "read_back", .str "reported"].contains (.str event) = true := by
    rcases hevent with rfl | rfl <;> decide
  simp only [targetFrom, get_of_get? hd, h, item_of_get? hk, bind, Except.bind]
  simp only [Option.filter_some, bne_iff_ne.mpr hne, if_true, hin, hloads, hdigest, pure,
    Except.pure]

theorem targetFrom_superseded {doc : Json} {d id : String} (hd : ev.isDict)
    (h : ev.get? "ref" = some ref) (hne : ref ≠ .null)
    (hk : ev.get? "event" = some (.str "superseded"))
    (huri : ref.get? "uri" = some (.str ("trw:ahr/" ++ id))) (hdoc : offered id = .ok (some doc))
    (hdigest : digest lib doc = .ok d) :
    targetFrom lib offered ev none = .ok (some ⟨.record doc, d⟩) := by
  simp only [targetFrom, get_of_get? hd, h, item_of_get? hk, bind, Except.bind]
  simp only [Option.filter_some, bne_iff_ne.mpr hne, if_true, ite_self, item_of_get? huri,
    formatValue, removePrefix_append, hdoc, hdigest, pure, Except.pure]

theorem targetFrom_bytes {d : String} (hd : ev.isDict) (h : ev.get? "ref" = some ref)
    (hne : ref ≠ .null) (hk : ev.get? "event" = some (.str event)) (hevent : event ≠ "superseded")
    (hdigest : ref.get? "digest" = some (.str d)) :
    targetFrom lib offered ev none = .ok (some ⟨.bytes ByteArray.empty, d⟩) := by
  have hother : ¬Json.str event = .str "superseded" := by simpa using hevent
  simp only [targetFrom, get_of_get? hd, h, item_of_get? hk, bind, Except.bind]
  simp only [Option.filter_some, bne_iff_ne.mpr hne, if_true, ite_self, if_neg hother,
    item_of_get? hdigest, formatValue, pure, Except.pure]

end

end

end TrwMcp.Comms
