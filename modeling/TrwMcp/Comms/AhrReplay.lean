import TrwMcp.Comms.AhrAppend

/-!
# The stored log is the log that was written

`rebuild` replays a handoff's rows from the bytes they hold. Every row was appended with the log
the writer had, kept in `Db.written`, and the two agree in every mailbox a run of calls reaches:
what `_stored_target` finds in the rows admits each event to the same log as what the writer read.

The one reference that is not yet stored when its event is written is the successor of a superseded
handoff, whose offered row comes last. `Coherent` is therefore relative to a table of offered
records, and an offer is carried out under the table that already has its record.
-/

namespace TrwMcp.Comms

open Handoff Lib

/-- The offered record of a handoff, if there is one. -/
abbrev Offered := String → Py (Option Json)

/-- Every record of the one table is in the other. -/
def Offered.Le (offered offered' : Offered) : Prop :=
  ∀ id doc, offered id = .ok (some doc) → offered' id = .ok (some doc)

/-- The replay admits a stored row. -/
def Stored (lib : Stdlib) (offered : Offered) (log : AhrLog) (row : AhrRow) (log' : AhrLog) : Prop :=
  ∃ ev target, loadsDict lib row.eventDoc = .ok ev ∧
    targetFrom lib offered ev row.record = .ok target ∧ step lib log ev target = .ok (log', [])

/-- The rows rebuild to this log: the record of the first one starts it, and each is admitted. -/
def Rebuilds (lib : Stdlib) (offered : Offered) (rows : List AhrRow) (log : AhrLog) : Prop :=
  ∃ raw doc log₀, rows.head?.bind (·.record) = some raw ∧ loadsDict lib raw = .ok doc ∧
    start lib doc = .ok (some log₀, []) ∧ Run (Stored lib offered) log₀ rows log

section

variable {lib : Stdlib} {offered offered' : Offered} {log log' log₀ : AhrLog}
  {row : AhrRow} {rows : List AhrRow} {T : Type} {db db' : Db T} {hid : String}

/-! ## Rebuilding -/

theorem Stored.deterministic (h : Stored lib offered log row log₀)
    (h' : Stored lib offered log row log') : log₀ = log' := by
  obtain ⟨ev, target, hev, htarget, hstep⟩ := h
  obtain ⟨ev', target', hev', htarget', hstep'⟩ := h'
  obtain rfl : ev = ev' := by rw [hev] at hev'; exact Except.ok.inj hev'
  obtain rfl : target = target' := by rw [htarget] at htarget'; exact Except.ok.inj htarget'
  rw [hstep] at hstep'
  exact (Prod.mk.inj (Except.ok.inj hstep')).1

theorem Stored.count (h : Stored lib offered log row log') : log'.count = log.count + 1 := by
  obtain ⟨ev, target, _, _, hstep⟩ := h
  obtain ⟨s, hs⟩ := step_clean hstep
  exact Admitted.count_eq (e := ⟨ev, target⟩) hs

theorem Stored.handoff (h : Stored lib offered log row log') : log'.handoff = log.handoff := by
  obtain ⟨ev, target, _, _, hstep⟩ := h
  obtain ⟨s, hs⟩ := step_clean hstep
  exact Admitted.handoff_eq (e := ⟨ev, target⟩) hs

theorem Rebuilds.deterministic (h : Rebuilds lib offered rows log)
    (h' : Rebuilds lib offered rows log') : log = log' := by
  obtain ⟨raw, doc, log₀, hraw, hdoc, hstart, hrun⟩ := h
  obtain ⟨raw', doc', log₀', hraw', hdoc', hstart', hrun'⟩ := h'
  obtain rfl : raw = raw' := by rw [hraw] at hraw'; exact Option.some.inj hraw'
  obtain rfl : doc = doc' := by rw [hdoc] at hdoc'; exact Except.ok.inj hdoc'
  rw [hstart] at hstart'
  obtain rfl := Option.some.inj (Prod.mk.inj (Except.ok.inj hstart')).1
  exact hrun.deterministic (fun _ _ _ _ hs hs' => hs.deterministic hs') hrun'

theorem Rebuilds.count (h : Rebuilds lib offered rows log) : log.count = rows.length := by
  obtain ⟨raw, doc, log₀, _, _, hstart, hrun⟩ := h
  obtain ⟨_, d, _, rfl⟩ := start_clean hstart
  refine hrun.history_invariant (I := fun rows log => log.count = rows.length) rfl ?_
  intro rows t row t' _ ih hstep
  rw [hstep.count, ih, List.length_append, List.length_singleton]

theorem replayRows_eq_ok :
    replayRows lib db rows log = .ok log' ↔ Run (Stored lib (offeredRecord lib db)) log rows log' := by
  induction rows generalizing log with
  | nil =>
      rw [replayRows, Except.pure_eq_ok]
      constructor
      · rintro rfl
        exact .nil
      · intro h
        exact (Run.eq_of_nil h).symm
  | cons row rows ih =>
      rw [Run.cons_iff]
      constructor
      · intro h
        obtain ⟨ev, hev, h⟩ := Except.bind_eq_ok.mp h
        obtain ⟨target, htarget, h⟩ := Except.bind_eq_ok.mp h
        obtain ⟨⟨t, errs⟩, hstep, h⟩ := Except.bind_eq_ok.mp h
        rw [uncaught_eq_ok] at hev htarget hstep
        cases errs with
        | cons e errs => cases h
        | nil => exact ⟨t, ⟨ev, target, hev, htarget, hstep⟩, ih.mp h⟩
      · rintro ⟨t, ⟨ev, target, hev, htarget, hstep⟩, hrun⟩
        have htarget' : storedTarget lib db ev row.record = .ok target := htarget
        simp only [replayRows, hev, htarget', hstep, uncaught, bind, Except.bind]
        exact ih.mpr hrun

theorem rebuild_eq_ok :
    rebuild lib db hid = .ok log ↔ Rebuilds lib (offeredRecord lib db) (eventRows db hid) log := by
  constructor
  · intro h
    unfold rebuild at h
    simp only at h
    split at h
    · cases h
    · next raw hraw =>
      obtain ⟨⟨started, errs⟩, hstart, h⟩ := Except.bind_eq_ok.mp h
      rw [uncaught_eq_ok] at hstart
      obtain ⟨doc, hdoc, hstart⟩ := Except.bind_eq_ok.mp hstart
      split at h
      · next log₀ heq =>
        obtain ⟨rfl, rfl⟩ := Prod.mk.inj heq
        exact ⟨raw, doc, log₀, hraw, hdoc, hstart, replayRows_eq_ok.mp h⟩
      · cases h
  · rintro ⟨raw, doc, log₀, hraw, hdoc, hstart, hrun⟩
    have hstart' : uncaught (do start lib (← loadsDict lib raw)) = .ok (some log₀, []) :=
      uncaught_eq_ok.mpr (Except.bind_eq_ok.mpr ⟨doc, hdoc, hstart⟩)
    unfold rebuild
    simp only [hraw]
    exact Except.bind_eq_ok.mpr ⟨_, hstart', replayRows_eq_ok.mpr hrun⟩

/-! ## More offered records -/

theorem targetFrom_mono (hle : offered.Le offered') {ev : Json} {record : Option ByteArray}
    {target : Option Target} (htarget : targetFrom lib offered ev record = .ok target)
    (hstep : step lib log ev target = .ok (log', [])) :
    targetFrom lib offered' ev record = .ok target := by
  obtain ⟨s, hs⟩ := step_clean hstep
  have hresolved : ∀ ref, ev.get? "ref" = some ref → target ≠ none := by
    rintro ref href rfl
    have herror := hs.ref
    simp [refError, href, pure, Except.pure] at herror
  unfold targetFrom at htarget ⊢
  obtain ⟨ref, href, htarget⟩ := Except.bind_eq_ok.mp htarget
  refine Except.bind_eq_ok.mpr ⟨ref, href, ?_⟩
  split at htarget
  · exact htarget
  · next ref' href' =>
    obtain ⟨event, hevent, htarget⟩ := Except.bind_eq_ok.mp htarget
    refine Except.bind_eq_ok.mpr ⟨event, hevent, ?_⟩
    split at htarget
    · exact htarget
    · split at htarget
      · next hsuperseded =>
        rw [if_pos hsuperseded]
        obtain ⟨uri, huri, htarget⟩ := Except.bind_eq_ok.mp htarget
        obtain ⟨successor, hsuccessor, htarget⟩ := Except.bind_eq_ok.mp htarget
        refine Except.bind_eq_ok.mpr ⟨uri, huri, ?_⟩
        cases successor with
        | some doc => exact Except.bind_eq_ok.mpr ⟨some doc, hle _ _ hsuccessor, htarget⟩
        | none =>
            obtain rfl := Except.pure_eq_ok.mp htarget
            have hget := Json.get_ok href
            rw [(Option.filter_eq_some_iff.mp href').1] at hget
            exact absurd rfl (hresolved ref' hget)
      · next hother => rwa [if_neg hother]

theorem Stored.mono (hle : offered.Le offered') (h : Stored lib offered log row log') :
    Stored lib offered' log row log' := by
  obtain ⟨ev, target, hev, htarget, hstep⟩ := h
  exact ⟨ev, target, hev, targetFrom_mono hle htarget hstep, hstep⟩

theorem Rebuilds.mono (hle : offered.Le offered') (h : Rebuilds lib offered rows log) :
    Rebuilds lib offered' rows log := by
  obtain ⟨raw, doc, log₀, hraw, hdoc, hstart, hrun⟩ := h
  exact ⟨raw, doc, log₀, hraw, hdoc, hstart, hrun.mono fun _ _ _ => Stored.mono hle⟩

/-! ## The invariant -/

/-- The rows of a handoff, in the order they were appended. -/
def rowsOf (db : Db T) (hid : String) : List AhrRow := db.ahrEvents.filter (·.handoffId == hid)

/-- The log of a handoff: its rows rebuild to it, and its record reads back as it is. -/
structure LogOf (lib : Stdlib) (offered : Offered) (rows : List AhrRow) (hid : String) (log : AhrLog) :
    Prop where
  rebuilds : Rebuilds lib offered rows log
  listed : Listed log.handoff
  named : log.handoff.getStr? "handoff_id" = some hid

/-- Every handoff's rows are numbered from 1 and rebuild to the log their writer had. -/
structure Coherent (lib : Stdlib) (offered : Offered) (db : Db T) : Prop where
  offers : Offered.Le (offeredRecord lib db) offered
  dense : ∀ hid, (rowsOf db hid).map (·.seq) = List.range' 1 (rowsOf db hid).length
  logs : ∀ hid, rowsOf db hid ≠ [] →
    ∃ log, Dict.lookup db.written hid = some log ∧ LogOf lib offered (rowsOf db hid) hid log

namespace Coherent

theorem empty : Coherent lib offered ({} : Db T) := by
  refine ⟨fun id doc h => ?_, fun _ => rfl, fun hid h => absurd rfl h⟩
  cases h

theorem of_same (h : SameEvents db db') (hc : Coherent lib offered db) : Coherent lib offered db' := by
  have hrows : ∀ hid, rowsOf db' hid = rowsOf db hid := fun hid => by rw [rowsOf, rowsOf, h.events]
  refine ⟨fun id doc hdoc => hc.offers id doc ?_, fun hid => ?_, fun hid hne => ?_⟩
  · rwa [offeredRecord, offeredRow, h.events] at hdoc
  · rw [hrows]
    exact hc.dense hid
  · rw [hrows] at hne ⊢
    rw [h.written]
    exact hc.logs hid hne

theorem eventRows_eq (hc : Coherent lib offered db) (hid : String) :
    eventRows db hid = rowsOf db hid := by
  have hsorted : ((rowsOf db hid).map (·.seq)).Pairwise (· ≤ ·) := by
    rw [hc.dense]
    exact List.pairwise_le_range'
  exact (List.pairwise_map.mp hsorted).insertionSort_eq

theorem rebuild_eq (hc : Coherent lib offered db) (h : rebuild lib db hid = .ok log) :
    Dict.lookup db.written hid = some log ∧ LogOf lib offered (rowsOf db hid) hid log := by
  rw [rebuild_eq_ok, hc.eventRows_eq] at h
  have hne : rowsOf db hid ≠ [] := by
    rintro hnil
    obtain ⟨raw, _, _, hraw, _⟩ := h
    simp [hnil] at hraw
  obtain ⟨written, hwritten, hlog⟩ := hc.logs hid hne
  obtain rfl := hlog.rebuilds.deterministic (h.mono hc.offers)
  exact ⟨hwritten, hlog⟩

end Coherent

/-! ## One more row -/

theorem rowsOf_append (h : db'.ahrEvents = db.ahrEvents ++ [row]) (hid : String) :
    rowsOf db' hid = if row.handoffId = hid then rowsOf db hid ++ [row] else rowsOf db hid := by
  rw [rowsOf, h, List.filter_append, rowsOf]
  split <;> simp_all

theorem offeredRow_append (h : db'.ahrEvents = db.ahrEvents ++ [row]) (id : String) :
    offeredRow db' id =
      (offeredRow db id).or (if row.handoffId = id ∧ row.seq = 1 then some row else none) := by
  rw [offeredRow, h, List.find?_append, offeredRow]
  congr 1
  by_cases hrow : row.handoffId = id ∧ row.seq = 1 <;> simp [hrow]

theorem LogOf.snoc {ev : Json} {stored : Option Target} (hlog : LogOf lib offered rows hid log)
    (hev : loadsDict lib row.eventDoc = .ok ev)
    (htarget : targetFrom lib offered ev row.record = .ok stored)
    (hstep : step lib log ev stored = .ok (log', [])) :
    LogOf lib offered (rows ++ [row]) hid log' := by
  obtain ⟨raw, doc, log₀, hraw, hdoc, hstart, hrun⟩ := hlog.rebuilds
  have hstored : Stored lib offered log row log' := ⟨ev, stored, hev, htarget, hstep⟩
  have hhead : (rows ++ [row]).head?.bind (·.record) = some raw := by
    cases rows with
    | nil => cases hraw
    | cons r rows => exact hraw
  refine ⟨⟨raw, doc, log₀, hhead, hdoc, hstart, hrun.snoc hstored⟩, ?_, ?_⟩
  · rw [hstored.handoff]
    exact hlog.listed
  · rw [hstored.handoff]
    exact hlog.named

namespace Coherent

theorem extend (hc : Coherent lib offered db)
    (hresult : db' = { db with
      ahrEvents := db.ahrEvents ++ [row], written := Dict.set db.written row.handoffId log' })
    (hseq : row.seq = (rowsOf db row.handoffId).length + 1)
    (hlog : LogOf lib offered (rowsOf db row.handoffId ++ [row]) row.handoffId log')
    (hoffers : Offered.Le (offeredRecord lib db') offered) : Coherent lib offered db' := by
  have hevents : db'.ahrEvents = db.ahrEvents ++ [row] := by rw [hresult]
  have hwritten : db'.written = Dict.set db.written row.handoffId log' := by rw [hresult]
  refine ⟨hoffers, fun hid => ?_, fun hid hne => ?_⟩
  · rw [rowsOf_append hevents]
    split
    · next heq =>
      subst heq
      rw [List.map_append, hc.dense, List.length_append, List.length_singleton, List.range'_concat,
        List.map_singleton, hseq]
      simp [Nat.add_comm]
    · exact hc.dense hid
  · rw [rowsOf_append hevents] at hne ⊢
    rw [hwritten]
    split
    · next heq =>
      subst heq
      exact ⟨log', Dict.lookup_set_self _ _ _, hlog⟩
    · next hother =>
      rw [if_neg hother] at hne
      rw [Dict.lookup_set_ne _ (Ne.symm hother)]
      exact hc.logs hid hne

end Coherent

variable {messageId event : String} {target : Option Target} {record : Option ByteArray}
  {fields : List (String × Json)} {ev : Json}

/-- The appended row is read back to the log the writer came to. -/
def ReadsBackAs (lib : Stdlib) (offered : Offered) (log : AhrLog) (ev : Json)
    (record : Option ByteArray) (log' : AhrLog) : Prop :=
  ∃ stored, targetFrom lib offered ev record = .ok stored ∧ step lib log ev stored = .ok (log', [])

/-- The rows changed, but no offered row did. -/
structure Kept (lib : Stdlib) (offered : Offered) (db db' : Db T) : Prop where
  coherent : Coherent lib offered db'
  offers : ∀ id, offeredRow db' id = offeredRow db id

theorem Kept.refl (hc : Coherent lib offered db) : Kept lib offered db db := ⟨hc, fun _ => rfl⟩

theorem Coherent.append (hc : Coherent lib offered db) (hlog : rebuild lib db hid = .ok log)
    (ha : Appended lib db log messageId event target record fields ev row log' db')
    (hback : ReadsBackAs lib offered log ev record log') : Kept lib offered db db' := by
  obtain ⟨_, hof⟩ := hc.rebuild_eq hlog
  obtain rfl : hid = row.handoffId := by
    have hnamed := hof.named
    rw [ha.handoffId] at hnamed
    exact (Option.some.inj hnamed).symm
  have hcount := hof.rebuilds.count
  have hne : rowsOf db row.handoffId ≠ [] := by
    intro hnil
    obtain ⟨raw, _, _, hraw, _⟩ := hof.rebuilds
    simp [hnil] at hraw
  have hlater : row.seq ≠ 1 := by
    have hpos := List.length_pos_iff.mpr hne
    rw [ha.seq, hcount]
    omega
  have hevents : db'.ahrEvents = db.ahrEvents ++ [row] := by rw [ha.result]
  have hsame : ∀ id, offeredRow db' id = offeredRow db id := fun id => by
    rw [offeredRow_append hevents, if_neg (fun h => hlater h.2), Option.or_none]
  obtain ⟨stored, htarget, hstep⟩ := hback
  refine ⟨hc.extend ha.result (by rw [ha.seq, hcount]) ?_ ?_, hsame⟩
  · refine hof.snoc (loadsDict_listed ha.built.listed ha.doc) ?_ hstep
    rw [ha.record]
    exact htarget
  · intro id doc hdoc
    rw [offeredRecord, hsame] at hdoc
    exact hc.offers id doc hdoc

theorem Coherent.first {doc : Json} {raw : ByteArray} (hc : Coherent lib offered db)
    (hdoc : Listed doc) (hraw : jcs doc = .ok raw) (hstart : start lib doc = .ok (some log, []))
    (ha : Appended lib db log messageId event none (some raw) fields ev row log' db')
    (hback : ReadsBackAs lib offered log ev (some raw) log')
    (hoffered : offered row.handoffId = .ok (some doc)) :
    Coherent lib offered db' ∧ ∀ id, offeredRecord lib db' id =
      if row.handoffId = id then .ok (some doc) else offeredRecord lib db id := by
  obtain ⟨_, d, _, rfl⟩ := start_clean hstart
  have hseq : row.seq = 1 := ha.seq
  have hnil : rowsOf db row.handoffId = [] := by
    by_contra hne
    have hone : 1 ∈ (rowsOf db row.handoffId).map (·.seq) := by
      rw [hc.dense]
      exact List.mem_range'_1.mpr ⟨le_refl _, by have := List.length_pos_iff.mpr hne; omega⟩
    obtain ⟨r, hr, hr1⟩ := List.mem_map.mp hone
    obtain ⟨hmem, hid⟩ := List.mem_filter.mp hr
    exact ha.fresh r hmem (by simpa using hid) (by rw [hr1, hseq])
  have hnone : offeredRow db row.handoffId = none := by
    refine List.find?_eq_none.mpr fun r hr hoffer => ?_
    have hmem : r ∈ rowsOf db row.handoffId := List.mem_filter.mpr ⟨hr, by simp_all⟩
    simp [hnil] at hmem
  have hevents : db'.ahrEvents = db.ahrEvents ++ [row] := by rw [ha.result]
  have hrecord : ∀ id, offeredRecord lib db' id =
      if row.handoffId = id then .ok (some doc) else offeredRecord lib db id := by
    intro id
    rw [offeredRecord, offeredRow_append hevents]
    by_cases heq : row.handoffId = id
    · subst heq
      rw [hnone, if_pos ⟨rfl, hseq⟩, Option.none_or, if_pos rfl, Option.bind_some, ha.record]
      simp [loadsDict_listed hdoc hraw]
    · rw [if_neg fun h => heq h.1, Option.or_none, if_neg heq]
      rfl
  obtain ⟨stored, htarget, hstep⟩ := hback
  refine ⟨hc.extend ha.result (by rw [hseq, hnil]; rfl) ?_ ?_, hrecord⟩
  · have hstored : Stored lib offered { handoff := doc, recordDigest := d } row log' :=
      ⟨ev, stored, loadsDict_listed ha.built.listed ha.doc, by rw [ha.record]; exact htarget, hstep⟩
    rw [hnil]
    refine ⟨⟨raw, doc, _, ?_, loadsDict_listed hdoc hraw, hstart, Run.single hstored⟩, ?_, ?_⟩
    · simp [ha.record]
    · rw [hstored.handoff]
      exact hdoc
    · rw [hstored.handoff]
      exact ha.handoffId
  · intro id doc' h
    rw [hrecord] at h
    split at h
    · next heq =>
      subst heq
      rw [hoffered, ← h]
    · exact hc.offers id doc' h

end

end TrwMcp.Comms
