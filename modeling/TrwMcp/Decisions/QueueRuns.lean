import TrwMcp.Decisions.Queue

/-!
# One answer per decision

While the queue can be read its rows are the ones whose text was written, in order, so the reader's
last accepted resolution of an identifier is the log's. The condition on a run keeps that one from
being followed by another.
-/

namespace TrwMcp.Decisions

open Lib Handoff State

/-! ## What was written -/

/-- The decisions whose row was written, in order. -/
def recordedIds (log : List Entry) : List String :=
  log.filterMap fun
    | .decision d => some d.id
    | .resolution _ _ => none

/-- The row of an entry that accepts a resolution of `id`. -/
def Entry.answer (id : String) : Entry → Option Json
  | .decision _ => none
  | .resolution args ts =>
      if args.decisionId = id ∧ args.actor ≠ "unattended" then some (args.row ts) else none

/-- Whether some resolution of `id` was written by an actor that may accept it. -/
def accepted (log : List Entry) (id : String) : Bool := log.any fun e => (e.answer id).isSome

theorem latest_isSome (f : Entry → Option Json) (log : List Entry) :
    (latest f log).isSome = log.any fun e => (f e).isSome := by
  induction log using List.reverseRecOn with
  | nil => rfl
  | append_singleton log e ih =>
      rw [latest_snoc, Option.isSome_or, ih, List.any_append]
      simp [Bool.or_comm]

/-! ## What is read -/

theorem readJsonl_eq_none {L : Type} {loads : L → Loaded Json} {lines : List L} :
    readJsonl loads lines = none ↔
      ∃ line ∈ lines, loads line = .malformed ∨ ∃ j, loads line = .value j ∧ j.isDict = false := by
  induction lines with
  | nil => simp [readJsonl]
  | cons line lines ih =>
      simp only [List.mem_cons, exists_eq_or_imp]
      rw [← ih, readJsonl]
      cases hload : loads line with
      | blank => simp
      | malformed => simp
      | value j => cases hj : j.isDict <;> simp [hj]

theorem readDecisionQueue_unreadable {L : Type} {loads : L → Loaded Json} {lines : List L} :
    (readDecisionQueue loads lines).unreadable = true ↔ readJsonl loads lines = none := by
  unfold readDecisionQueue
  cases readJsonl loads lines <;> simp [Scan.state]

theorem readJsonl_append {L : Type} {loads : L → Loaded Json} (xs ys : List L) :
    readJsonl loads (xs ++ ys) =
      (readJsonl loads xs).bind fun rows => (readJsonl loads ys).map (rows ++ ·) := by
  induction xs with
  | nil => cases h : readJsonl loads ys <;> simp [readJsonl, h]
  | cons x xs ih =>
      rw [List.cons_append, readJsonl, readJsonl]
      cases loads x with
      | blank => exact ih
      | malformed => rfl
      | value j =>
          by_cases hj : j.isDict = true
          · simp only [hj, if_true, ih]
            cases readJsonl loads xs <;> cases readJsonl loads ys <;> rfl
          · simp [hj]

theorem Entry.row_isDict (e : Entry) : e.row.isDict = true := by
  cases e <;> rfl

/-- The rows of a file that can be read. -/
def rowsOf (file : JsonlFile Json) : Option (List Json) := readJsonl loadsLine file.seen

theorem rows_eq (file : JsonlFile Json) :
    rowsOf file = (readJsonl loadsLine file.lines).bind fun rows =>
      (readJsonl loadsLine [file.tail]).map (rows ++ ·) :=
  readJsonl_append _ _

theorem rows_append {file : JsonlFile Json} {entry : Entry} {written : Written} {rows : List Json}
    (h : rowsOf (file.append entry.row written) = some rows) :
    ∃ old, rowsOf file = some old ∧ rows = old ++ if written.lands then [entry.row] else [] := by
  have hglue : ∀ p rows', readJsonl loadsLine [file.tail ++ [p]] = some rows' →
      file.tail = [] ∧ p ≠ .part := by
    intro p rows' hp
    cases htail : file.tail with
    | nil =>
        rw [htail] at hp
        refine ⟨rfl, ?_⟩
        rintro rfl
        cases hp
    | cons q qs =>
        exfalso
        rw [htail] at hp
        cases q <;> cases qs <;> cases hp
  have hrow : ∀ rows', readJsonl loadsLine [file.tail ++ [.row entry.row]] = some rows' →
      rows' = [entry.row] := by
    intro rows' hp
    rw [(hglue _ _ hp).1] at hp
    simpa [readJsonl, loadsLine, entry.row_isDict] using hp.symm
  rw [rows_eq] at h ⊢
  obtain ⟨closed, hclosed, hlast⟩ := Option.bind_eq_some_iff.mp h
  obtain ⟨last, hlast', rfl⟩ := Option.map_eq_some_iff.mp hlast
  cases written with
  | nothing =>
      have hclosed' : readJsonl loadsLine file.lines = some closed := hclosed
      have hlast'' : readJsonl loadsLine [file.tail] = some last := hlast'
      exact ⟨closed ++ last, by rw [hclosed', hlast'']; rfl, by simp [Written.lands]⟩
  | part => exact absurd rfl (hglue _ _ hlast').2
  | text =>
      have hclosed' : readJsonl loadsLine file.lines = some closed := hclosed
      refine ⟨closed, ?_, by simp [Written.lands, hrow _ hlast']⟩
      rw [hclosed', (hglue _ _ hlast').1]
      simp [readJsonl, loadsLine]
  | line =>
      have hopen : readJsonl loadsLine (file.lines ++ [file.tail ++ [.row entry.row]]) =
          some closed := hclosed
      rw [readJsonl_append] at hopen
      obtain ⟨before, hbefore, hline⟩ := Option.bind_eq_some_iff.mp hopen
      obtain ⟨own, hown, rfl⟩ := Option.map_eq_some_iff.mp hline
      obtain rfl : last = [] := by simpa [JsonlFile.append, readJsonl, loadsLine] using hlast'.symm
      refine ⟨before, ?_, by simp [Written.lands, hrow _ hown]⟩
      rw [hbefore, (hglue _ _ hown).1]
      simp [readJsonl, loadsLine]

/-! ## What the reader derives -/

/-- The reader's loop over the rows that were written. -/
def scanLog (log : List Entry) : Scan := (log.map Entry.row).foldl Scan.row {}

theorem scanLog_decision {log : List Entry} {d : Decision} (hid : d.id ≠ "") :
    scanLog (log ++ [.decision d]) =
      { scanLog log with
          pendingOrder :=
            if Dict.has (scanLog log).records d.id then (scanLog log).pendingOrder
            else (scanLog log).pendingOrder ++ [d.id]
          records := Dict.set (scanLog log).records d.id d.row } := by
  have hrow : d.row.getStr? "id" = some d.id := rfl
  have hstatus : d.row.get? "status" = some (.str "pending") := rfl
  rw [scanLog, List.map_append, List.foldl_append]
  change Scan.row (scanLog log) d.row = _
  rw [Scan.row, hrow]
  simp only [hstatus, if_neg hid, if_true]

theorem scanLog_resolution {log : List Entry} {args : ResolveArgs} {ts : String}
    (hid : args.decisionId ≠ "") :
    scanLog (log ++ [.resolution args ts]) =
      { scanLog log with
          resolutions :=
            if args.actor ≠ "unattended" then
              Dict.set (scanLog log).resolutions args.decisionId (args.row ts)
            else (scanLog log).resolutions } := by
  have hrow : (args.row ts).getStr? "id" = some args.decisionId := rfl
  have hstatus : (args.row ts).get? "status" = some (.str "resolved") := rfl
  have hactor : (args.row ts).get? "actor" = some (.str args.actor) := rfl
  rw [scanLog, List.map_append, List.foldl_append]
  change Scan.row (scanLog log) (args.row ts) = _
  rw [Scan.row, hrow]
  simp only [hstatus, hactor, if_neg hid]
  by_cases hunattended : args.actor = "unattended" <;> simp [hunattended]

/-- No row is written without an identifier. -/
def Named (log : List Entry) : Prop :=
  ∀ e ∈ log, match e with
    | .decision d => d.id ≠ ""
    | .resolution args _ => args.decisionId ≠ ""

theorem recordedIds_append (log : List Entry) (e : Entry) :
    recordedIds (log ++ [e]) = recordedIds log ++ recordedIds [e] := List.filterMap_append

theorem scanLog_reads {log : List Entry} (hnamed : Named log) (hnodup : (recordedIds log).Nodup) :
    (scanLog log).pendingOrder = recordedIds log ∧
      (∀ id, Dict.has (scanLog log).records id = true ↔ id ∈ recordedIds log) ∧
      ∀ id, Dict.lookup (scanLog log).resolutions id = latest (Entry.answer id) log := by
  induction log using List.reverseRecOn with
  | nil => exact ⟨rfl, by simp [scanLog, Dict.has, recordedIds], fun id => rfl⟩
  | append_singleton log e ih =>
      rw [recordedIds_append] at hnodup ⊢
      obtain ⟨horder, hrecords, hresolutions⟩ :=
        ih (fun e' he' => hnamed e' (List.mem_append_left _ he')) (List.nodup_append.mp hnodup).1
      have he := hnamed e (List.mem_append_right _ (List.mem_singleton.mpr rfl))
      cases e with
      | decision d =>
          have hfresh : ¬Dict.has (scanLog log).records d.id = true := by
            rw [hrecords]
            intro hmem
            exact (List.nodup_append.mp hnodup).2.2 _ hmem _ (List.mem_singleton.mpr rfl) rfl
          rw [scanLog_decision he, if_neg hfresh]
          refine ⟨by rw [horder]; rfl, fun id => ?_, fun id => ?_⟩
          · change (Dict.lookup (Dict.set _ _ _) id).isSome = true ↔ _
            rw [Dict.lookup_set]
            split
            · next heq => simp [heq, recordedIds]
            · next hne =>
                rw [List.mem_append, ← hrecords id]
                simp [recordedIds, hne, Dict.has]
          · rw [latest_snoc]
            exact hresolutions id
      | resolution args ts =>
          rw [scanLog_resolution he]
          refine ⟨by rw [horder]; simp [recordedIds], fun id => ?_, fun id => ?_⟩
          · rw [show recordedIds [Entry.resolution args ts] = [] from rfl, List.append_nil]
            exact hrecords id
          · rw [latest_snoc]
            by_cases hactor : args.actor = "unattended"
            · simpa [hactor, Entry.answer] using hresolutions id
            · simp only [ne_eq, hactor, not_false_eq_true, if_true, Dict.lookup_set]
              by_cases hid : args.decisionId = id
              · simp [Entry.answer, hid, hactor]
              · simpa [Entry.answer, hid, hactor, Ne.symm hid] using hresolutions id

/-! ## Runs -/

section

variable {A : Type}

structure Inv (w : World A) : Prop where
  rows : ∀ rows, rowsOf w.file = some rows → rows = w.log.map Entry.row
  clean : w.cut = false → w.file.tail = [] ∧ (rowsOf w.file).isSome = true
  named : Named w.log
  nodup : (recordedIds w.log).Nodup
  issued : ∀ id ∈ recordedIds w.log, id ∈ w.issued
  resolving : ∀ a args, w.resolving a = some args → args.decisionId ≠ ""
  returned : ∀ id row, (id, row) ∈ w.returned → latest (Entry.answer id) w.log = some row

/-- A queue no decision has been recorded in. -/
def World.fresh : World A := { resolving := fun _ => none }

theorem Inv.fresh : Inv (World.fresh : World A) where
  rows rows h := by
    obtain rfl : [] = rows := Option.some.inj h
    rfl
  clean _ := ⟨rfl, rfl⟩
  named := by simp [Named, World.fresh]
  nodup := List.nodup_nil
  issued := by simp [World.fresh, recordedIds]
  resolving := by simp [World.fresh]
  returned := by simp [World.fresh]

/-- The condition on one step: an attended resolution is written only while none of the decision
has been returned, and an unattended one is not returned. -/
def Regular (w : World A) : Deed A → Prop
  | .append a _ written returns => ∀ args, w.resolving a = some args →
      (returns = true → args.actor ≠ "unattended") ∧
        (args.actor ≠ "unattended" → written.lands = true →
          ∀ row, (args.decisionId, row) ∉ w.returned)
  | _ => True

/-- What is asked of every state. -/
structure OneAnswer (w : World A) : Prop where
  answer : ∀ id row, (id, row) ∈ w.returned → w.state.unreadable = false →
    Dict.lookup w.state.resolutions id = some row ∧ beginResolve w.state id = .known row
  pending : w.state.unreadable = false →
    w.state.pendingIds = (recordedIds w.log).filter fun id => !accepted w.log id
  unparseable : (∃ line ∈ w.file.seen, loadsLine line = .malformed) → w.state.unreadable = true
  readable : w.cut = false → w.state.unreadable = false

theorem Inv.append_rows {w : World A} (h : Inv w) {entry : Entry} {written : Written}
    {rows : List Json} (hrows : rowsOf (w.append entry written).file = some rows) :
    rows = (w.append entry written).log.map Entry.row := by
  obtain ⟨old, hold, rfl⟩ := rows_append hrows
  rw [h.rows old hold]
  cases hlands : written.lands <;> simp [World.append, hlands]

theorem Inv.append_clean {w : World A} (h : Inv w) {entry : Entry} {written : Written}
    (hcut : (w.append entry written).cut = false) :
    (w.append entry written).file.tail = [] ∧ (rowsOf (w.append entry written).file).isSome = true := by
  have hcut' : w.cut = false ∧ written.cut = false := by simpa [World.append] using hcut
  obtain ⟨htail, hsome⟩ := h.clean hcut'.1
  cases written with
  | nothing => exact ⟨htail, hsome⟩
  | part => cases hcut'.2
  | text => cases hcut'.2
  | line =>
      refine ⟨rfl, ?_⟩
      obtain ⟨rows, hrows⟩ := Option.isSome_iff_exists.mp hsome
      rw [rows_eq, htail] at hrows
      obtain ⟨closed, hclosed, -⟩ := Option.bind_eq_some_iff.mp hrows
      have hlines : readJsonl loadsLine (w.file.lines ++ [[.row entry.row]]) =
          some (closed ++ [entry.row]) := by
        rw [readJsonl_append, hclosed]
        simp [readJsonl, loadsLine, entry.row_isDict]
      change (readJsonl loadsLine
        ((w.file.lines ++ [w.file.tail ++ [.row entry.row]]) ++ [[]])).isSome = true
      rw [htail, List.nil_append, readJsonl_append, hlines]
      rfl

theorem Inv.reads {w : World A} (h : Inv w) (hreadable : w.state.unreadable = false) :
    w.state = (scanLog w.log).state := by
  have hrows : rowsOf w.file ≠ none := by
    intro hnone
    have := readDecisionQueue_unreadable.mpr hnone
    rw [World.state] at hreadable
    simp [hreadable] at this
  obtain ⟨rows, hrows⟩ := Option.ne_none_iff_exists'.mp hrows
  have hread : readJsonl loadsLine w.file.seen = some rows := hrows
  rw [World.state, readDecisionQueue, hread, h.rows rows hrows]
  rfl

theorem Inv.lookup {w : World A} (h : Inv w) (hreadable : w.state.unreadable = false)
    (id : String) : Dict.lookup w.state.resolutions id = latest (Entry.answer id) w.log := by
  rw [h.reads hreadable]
  exact (scanLog_reads h.named h.nodup).2.2 id

theorem Inv.oneAnswer {w : World A} (h : Inv w) : OneAnswer w where
  answer id row hreturned hreadable := by
    have hlookup : Dict.lookup w.state.resolutions id = some row := by
      rw [h.lookup hreadable, h.returned id row hreturned]
    exact ⟨hlookup, by simp [beginResolve, hreadable, hlookup]⟩
  pending hreadable := by
    obtain ⟨horder, -, hresolutions⟩ := scanLog_reads h.named h.nodup
    rw [h.reads hreadable]
    simp only [Scan.state, horder, Dict.has, hresolutions, accepted, latest_isSome]
  unparseable := by
    rintro ⟨line, hline, hmalformed⟩
    exact readDecisionQueue_unreadable.mpr
      (readJsonl_eq_none.mpr ⟨line, hline, .inl hmalformed⟩)
  readable hcut := by
    rw [← Bool.not_eq_true, World.state, readDecisionQueue_unreadable]
    intro hnone
    have hsome := (h.clean hcut).2
    rw [rowsOf, hnone] at hsome
    cases hsome

theorem latest_answer_append {log : List Entry} {entry : Entry} {id : String} {row : Json}
    (h : latest (Entry.answer id) log = some row) (hnone : entry.answer id = none) :
    latest (Entry.answer id) (log ++ [entry]) = some row := by
  rw [latest_snoc, hnone, h]
  rfl

theorem Inv.record {w : World A} (h : Inv w) {d : Decision} {written : Written} (hid : d.id ≠ "")
    (hnew : d.id ∉ w.issued) :
    Inv { w.append (.decision d) written with issued := w.issued ++ [d.id] } := by
  have hfresh : d.id ∉ recordedIds w.log := fun hmem => hnew (h.issued _ hmem)
  refine ⟨fun rows => h.append_rows, h.append_clean, ?_, ?_, ?_, h.resolving, ?_⟩
  all_goals
    cases hlands : written.lands
    all_goals simp only [World.append, hlands, if_true, Bool.false_eq_true, if_false]
  · exact h.named
  · intro e he
    rcases List.mem_append.mp he with he | he
    · exact h.named e he
    · exact List.mem_singleton.mp he ▸ hid
  · exact h.nodup
  · rw [recordedIds_append, List.nodup_append]
    refine ⟨h.nodup, List.nodup_singleton d.id, fun id hmem id' hmem' => ?_⟩
    rintro rfl
    exact hfresh (List.mem_singleton.mp hmem' ▸ hmem)
  · exact fun id hmem => List.mem_append_left _ (h.issued id hmem)
  · intro id hmem
    rw [recordedIds_append] at hmem
    rcases List.mem_append.mp hmem with hmem | hmem
    · exact List.mem_append_left _ (h.issued id hmem)
    · exact List.mem_append_right _ hmem
  · exact h.returned
  · exact fun id row hmem => latest_answer_append (h.returned id row hmem) rfl

theorem Inv.withdraw {w : World A} (h : Inv w) {resolving : A → Option ResolveArgs}
    (hresolving : ∀ a args, resolving a = some args → args.decisionId ≠ "") :
    Inv { w with resolving } :=
  ⟨h.rows, h.clean, h.named, h.nodup, h.issued, hresolving, h.returned⟩

theorem Inv.resolve {w : World A} (h : Inv w) {args : ResolveArgs} {ts : String}
    {written : Written} {given : List (String × Json)} (hid : args.decisionId ≠ "")
    (hgiven : ∀ id row, (id, row) ∈ given → (id, row) ∈ w.returned ∨
      (written = .line ∧ args.actor ≠ "unattended" ∧ id = args.decisionId ∧ row = args.row ts))
    (halone : args.actor ≠ "unattended" → written.lands = true →
      ∀ row, (args.decisionId, row) ∉ w.returned) :
    Inv { w.append (.resolution args ts) written with returned := given } := by
  refine ⟨fun rows => h.append_rows, h.append_clean, ?_, ?_, ?_, h.resolving, ?_⟩
  all_goals
    cases hlands : written.lands
    all_goals simp only [World.append, hlands, if_true, Bool.false_eq_true, if_false]
  · exact h.named
  · intro e he
    rcases List.mem_append.mp he with he | he
    · exact h.named e he
    · exact List.mem_singleton.mp he ▸ hid
  · exact h.nodup
  · rw [recordedIds_append]
    simpa [recordedIds] using h.nodup
  · exact h.issued
  · rw [recordedIds_append]
    simpa [recordedIds] using h.issued
  · rintro id row hmem
    rcases hgiven id row hmem with hmem | ⟨rfl, -⟩
    · exact h.returned id row hmem
    · cases hlands
  · rintro id row hmem
    rcases hgiven id row hmem with hmem | ⟨-, hactor, rfl, rfl⟩
    · refine latest_answer_append (h.returned id row hmem) (if_neg ?_)
      rintro ⟨rfl, hactor⟩
      exact halone hactor hlands row hmem
    · rw [latest_snoc, Entry.answer, if_pos ⟨rfl, hactor⟩]
      rfl

variable [DecidableEq A]

theorem Inv.step {w w' : World A} {deed : Deed A} (h : Inv w) (hregular : Regular w deed)
    (hstep : Step w deed w') : Inv w' := by
  have hdrop : ∀ a a' args, Function.update w.resolving a none a' = some args →
      args.decisionId ≠ "" := by
    intro a a' args ha'
    rw [Function.update_apply] at ha'
    split at ha'
    · cases ha'
    · exact h.resolving a' args ha'
  cases hstep with
  | recorded hid hnew => exact h.record hid hnew
  | refused _ => exact h
  | @known a args row hknown =>
      refine ⟨h.rows, h.clean, h.named, h.nodup, h.issued, h.resolving, fun id row' hmem => ?_⟩
      rcases List.mem_append.mp hmem with hmem | hmem
      · exact h.returned id row' hmem
      · obtain ⟨rfl, rfl⟩ := Prod.mk.inj (List.mem_singleton.mp hmem)
        unfold beginResolve at hknown
        cases hreadable : w.state.unreadable with
        | true => simp [hreadable] at hknown
        | false =>
            rw [← h.lookup hreadable]
            cases hlookup : Dict.lookup w.state.resolutions args.decisionId with
            | none =>
                simp only [hreadable, hlookup, Bool.false_eq_true, if_false] at hknown
                split at hknown <;> cases hknown
            | some row =>
                simp only [hreadable, hlookup, Bool.false_eq_true, if_false] at hknown
                rw [Reading.known.inj hknown]
  | @read a args happend =>
      refine h.withdraw fun a' args' ha' => ?_
      rw [Function.update_apply] at ha'
      split at ha'
      · obtain rfl := Option.some.inj ha'
        unfold beginResolve at happend
        cases hreadable : w.state.unreadable with
        | true => simp [hreadable] at happend
        | false =>
            simp only [hreadable, Bool.false_eq_true, if_false] at happend
            split at happend
            · cases happend
            · split at happend
              · next hhas =>
                  rw [h.reads hreadable] at hhas
                  have hmem := ((scanLog_reads h.named h.nodup).2.1 _).mp hhas
                  obtain ⟨e, he, hsome⟩ := List.mem_filterMap.mp hmem
                  have hname := h.named e he
                  cases e with
                  | decision d => exact Option.some.inj hsome ▸ hname
                  | resolution _ _ => cases hsome
              · cases happend
      · exact h.resolving a' args' ha'
  | @appended a args ts written returns ha hreturns =>
      obtain ⟨hattended, halone⟩ := hregular args ha
      have hgiven : ∀ id row, (id, row) ∈ (if returns = true then
            w.returned ++ [(args.decisionId, args.row ts)] else w.returned) →
          (id, row) ∈ w.returned ∨ (written = .line ∧ args.actor ≠ "unattended" ∧
            id = args.decisionId ∧ row = args.row ts) := by
        intro id row hmem
        cases hret : returns with
        | false => exact .inl (by simpa [hret] using hmem)
        | true =>
            rw [hret, if_pos rfl] at hmem
            rcases List.mem_append.mp hmem with hmem | hmem
            · exact .inl hmem
            · obtain ⟨rfl, rfl⟩ := Prod.mk.inj (List.mem_singleton.mp hmem)
              exact .inr ⟨hreturns hret, hattended hret, rfl, rfl⟩
      exact (h.resolve (h.resolving a args ha) hgiven halone).withdraw (hdrop a)
  | stopped => exact h.withdraw (hdrop _)

/-- One step that meets the condition. -/
def RegularStep (w : World A) (deed : Deed A) (w' : World A) : Prop :=
  Step w deed w' ∧ Regular w deed

/-- In a run of regular steps every resolution that was returned is the accepted one, in every
later read that is not unreadable; and none is, while no append stopped part way. -/
theorem one_answer_per_decision {w : World A} {deeds : List (Deed A)}
    (h : Run RegularStep World.fresh deeds w) : OneAnswer w :=
  (h.invariant (I := Inv) Inv.fresh fun _ _ _ hinv hstep => hinv.step hstep.2 hstep.1).oneAnswer

end

/-! ### Two resolvers -/

def sampleDecision : Decision := ⟨"d-1", "t", "run", "Which?", ["yes", "no"], "asleep", true⟩

def sampleResolve (choice : String) : ResolveArgs := ⟨"d-1", choice, "operator"⟩

def recordedWorld : World Bool :=
  { World.fresh.append (.decision sampleDecision) .line with
      issued := (World.fresh : World Bool).issued ++ [sampleDecision.id] }

def readWorld (w : World Bool) (a : Bool) (choice : String) : World Bool :=
  { w with resolving := Function.update w.resolving a (some (sampleResolve choice)) }

def answeredWorld (w : World Bool) (a : Bool) (choice : String) : World Bool :=
  { w.append (.resolution (sampleResolve choice) "t") .line with
      resolving := Function.update w.resolving a none
      returned := w.returned ++ [("d-1", (sampleResolve choice).row "t")] }

theorem recorded_step :
    Step (World.fresh : World Bool) (.record sampleDecision .line) recordedWorld :=
  .recorded (by decide) (by simp [World.fresh])

theorem read_step {w : World Bool} {a : Bool} {choice : String}
    (h : beginResolve w.state "d-1" = .append) :
    Step w (.read a (sampleResolve choice)) (readWorld w a choice) := .read h

theorem answered_step {w : World Bool} {a : Bool} {choice : String}
    (h : w.resolving a = some (sampleResolve choice)) :
    Step w (.append a "t" .line true) (answeredWorld w a choice) := .appended h fun _ => rfl

theorem one_answer_per_decision_sample :
    OneAnswer (answeredWorld (readWorld recordedWorld true "yes") true "yes") := by
  have hregular : Regular (readWorld recordedWorld true "yes") (.append true "t" .line true) := by
    intro args hargs
    obtain rfl : sampleResolve "yes" = args := by simpa [readWorld] using hargs
    exact ⟨fun _ => by decide, fun _ _ row hmem => by cases hmem⟩
  exact one_answer_per_decision
    (((Run.nil.snoc ⟨recorded_step, trivial⟩).snoc
      ⟨@read_step _ true "yes" (by decide +kernel), trivial⟩).snoc
        ⟨answered_step (by simp [readWorld]), hregular⟩)

/-- Two resolvers that read before either appends: the first answer that was returned is not the
one that is accepted. -/
theorem answer_replaced :
    ∃ (w : World Bool) (deeds : List (Deed Bool)), Run Step World.fresh deeds w ∧
      ("d-1", (sampleResolve "yes").row "t") ∈ w.returned ∧ w.state.unreadable = false ∧
        Dict.lookup w.state.resolutions "d-1" = some ((sampleResolve "no").row "t") := by
  let both := readWorld (readWorld recordedWorld true "yes") false "no"
  refine ⟨answeredWorld (answeredWorld both true "yes") false "no", _,
    ((((Run.nil.snoc recorded_step).snoc (@read_step _ true "yes" (by decide +kernel))).snoc
      (@read_step _ false "no" (by decide +kernel))).snoc
        (@answered_step both true "yes" ?_)).snoc (@answered_step _ false "no" ?_),
    ?_, by decide +kernel, by decide +kernel⟩
  · simp [both, readWorld]
  · simp [both, readWorld, answeredWorld]
  · simp [both, answeredWorld]

end TrwMcp.Decisions
