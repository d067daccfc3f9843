import TrwMcp.Scheduling.Registry

/-!
# An append that stops

The line goes to the ledger first and the anchor is published after it. An append that stops before
its first byte has done nothing a reader sees. One that stops later leaves an action, or a part of
one, that no anchor vouches for: every reader refuses it as it refuses a forged extension, and what
was committed stands in front of it.
-/

namespace TrwMcp.Scheduling

open Handoff Intent Lib

/-! ## Lines behind a terminated text -/

theorem linesOf_append {a : List Char} (h : a = [] ∨ a.getLast? = some '\n') (b : List Char) :
    linesOf (a ++ b) = linesOf a ++ linesOf b := by
  induction hn : a.length using Nat.strong_induction_on generalizing a with
  | _ n ih =>
    rcases a with - | ⟨c, cs⟩
    · rfl
    · rcases cs with - | ⟨d, ds⟩
      · obtain rfl : c = '\n' := by simpa using h
        rw [linesOf_ne (by simp), List.singleton_append, linesOf_ne (by simp),
          splitLines_char (by simp), splitLines_char (by simp), if_pos (by decide),
          if_pos (by decide)]
        rfl
      · have hlast : (d :: ds).getLast? = some '\n' := by simpa using h
        rw [linesOf_ne (by simp), List.cons_append, linesOf_ne (by simp)]
        by_cases hcrlf : c = '\r' ∧ d = '\n'
        · obtain ⟨rfl, rfl⟩ := hcrlf
          rw [List.cons_append, splitLines_crlf, splitLines_crlf]
          rcases ds with - | ⟨e, es⟩
          · rfl
          · rw [ih (e :: es).length (by simp at hn ⊢; omega) (.inr (by simpa using hlast)) rfl]
            rfl
        · have hrest := ih (d :: ds).length (by simp at hn ⊢; omega) (.inr hlast) rfl
          rw [@splitLines_char c (d :: ds) fun rest hc hcs => hcrlf ⟨hc, (List.cons.inj hcs).1⟩,
            @splitLines_char c (d :: ds ++ b) fun rest hc hcs => hcrlf ⟨hc, (List.cons.inj hcs).1⟩]
          by_cases hbreak : isLineBreak c = true
          · rw [if_pos hbreak, if_pos hbreak, hrest]
            rfl
          · rw [if_neg hbreak, if_neg hbreak]
            rw [@linesOf_ne (d :: ds ++ b) (by simp), @linesOf_ne (d :: ds) (by simp),
              List.cons_append] at hrest
            obtain ⟨hhead, htail⟩ := List.cons.inj hrest
            rw [List.cons_append, hhead, htail]
            rfl

section

variable {lib : Stdlib} {store left : Store} {actions : List SchedulingAction}
  {action : SchedulingAction} {part : List Char}

/-- The text of the line an append writes. It is ASCII, so a part of its bytes is a part of it. -/
def lineText (lib : Stdlib) (action : SchedulingAction) : List Char :=
  dumps lib spaced action.modelDump ++ ['\n']

/-- The files where an append has stopped, with a part of its line written and no anchor. -/
def Store.stopped (part : List Char) (store : Store) : Store :=
  { store with ledger := some (store.ledger.getD ByteArray.empty ++ (String.ofList part).toUTF8) }

/-- The ledger is absent, or its last line is ended, as an append leaves it. -/
def Terminated (raw : Option ByteArray) : Prop :=
  ∀ bytes text, raw = some bytes → String.fromUTF8? bytes = some text →
    text.toList = [] ∨ text.toList.getLast? = some '\n'

theorem readLedger_congr (hload : loadLedger lib left.ledger = loadLedger lib store.ledger)
    (hanchor : left.anchor = store.anchor) : readLedger lib left = readLedger lib store := by
  rw [readLedger, readLedger, hload, hanchor]

theorem loadLedger_empty : loadLedger lib (some ByteArray.empty) = .ok [] := by
  have htext : String.fromUTF8? ByteArray.empty = some "" := by
    have := fromUTF8_toUTF8 ""
    exact this
  simp [loadLedger, ledgerLines, htext, splitlines, loadLines, bind, Except.bind]

theorem readLedger_opened : readLedger lib (store.stopped []) = readLedger lib store := by
  have hnothing : (String.ofList []).toUTF8 = ByteArray.empty := rfl
  refine readLedger_congr ?_ rfl
  rw [Store.stopped, hnothing]
  cases hledger : store.ledger with
  | none => simpa [loadLedger] using loadLedger_empty
  | some raw => simp

theorem appendLocked_congr {request : Request} (hread : readLedger lib left = readLedger lib store)
    (hledger : left.ledger.getD ByteArray.empty = store.ledger.getD ByteArray.empty) :
    (appendLocked lib request left).1 = (appendLocked lib request store).1 ∧
      ∀ action store', appendLocked lib request store = (.ok action, store') →
        appendLocked lib request left = (.ok action, store') := by
  unfold appendLocked
  by_cases hreceipt : stripText request.authorizationReceipt = ""
  · rw [if_pos hreceipt]
    exact ⟨rfl, fun _ _ h => absurd h Eff.raise_ne_ok⟩
  · rw [if_neg hreceipt, Eff.read_bind, Eff.read_bind, hread]
    cases readLedger lib store >>= fun actions => extend lib actions request with
    | error failure => exact ⟨rfl, fun _ _ h => absurd h Eff.raise_ne_ok⟩
    | ok action =>
        have hwrite : left.write lib action = store.write lib action := by
          rw [Store.write, Store.write, hledger]
        exact ⟨rfl, fun action' store' h => by
          rw [← h]
          exact congrArg (Prod.mk (Except.ok action)) hwrite⟩

theorem buildRegistry_congr (hread : readLedger lib left = readLedger lib store)
    (prds : List PrdFile) (limits : PrdActiveLimits) :
    buildRegistry lib prds left limits = buildRegistry lib prds store limits := by
  rw [buildRegistry, buildRegistry, hread]

theorem WriterCall.congr (hread : readLedger lib left = readLedger lib store)
    (hledger : left.ledger.getD ByteArray.empty = store.ledger.getD ByteArray.empty)
    (prds : List PrdFile) (call : WriterCall) :
    (call.run lib prds left).1 = (call.run lib prds store).1 ∧
      ∀ action store', call.run lib prds store = (.ok action, store') →
        call.run lib prds left = (.ok action, store') := by
  cases call with
  | advanceEvaluationEpoch receipt actor actionId today => exact appendLocked_congr hread hledger
  | renew prdId receipt actor actionId today => exact appendLocked_congr hread hledger
  | setExecutionState change =>
      change (Scheduling.setExecutionState lib prds change left).1 =
          (Scheduling.setExecutionState lib prds change store).1 ∧
        ∀ action store', Scheduling.setExecutionState lib prds change store = (.ok action, store') →
          Scheduling.setExecutionState lib prds change left = (.ok action, store')
      unfold Scheduling.setExecutionState
      split
      · rw [Eff.read_bind, Eff.read_bind, buildRegistry_congr hread]
        cases buildRegistry lib prds store {} >>= change.admit with
        | error raised => exact ⟨rfl, fun _ _ h => absurd h Eff.raise_ne_ok⟩
        | ok u => exact appendLocked_congr hread hledger
      · exact appendLocked_congr hread hledger

theorem appendLocked_error {request : Request} {failure : Failure} {store' : Store}
    (h : appendLocked lib request store = (.error failure, store')) : store' = store := by
  unfold appendLocked at h
  split at h
  · exact (congrArg Prod.snd h).symm
  · rw [Eff.read_bind] at h
    cases hread : readLedger lib store >>= fun actions => extend lib actions request with
    | error raised =>
        rw [hread] at h
        exact (congrArg Prod.snd h).symm
    | ok action =>
        rw [hread] at h
        cases h

theorem WriterCall.error {prds : List PrdFile} {call : WriterCall} {failure : Failure}
    {store' : Store} (h : call.run lib prds store = (.error failure, store')) : store' = store := by
  cases call with
  | advanceEvaluationEpoch receipt actor actionId today => exact appendLocked_error h
  | renew prdId receipt actor actionId today => exact appendLocked_error h
  | setExecutionState change =>
      rw [WriterCall.run, Scheduling.setExecutionState] at h
      split at h
      · rw [Eff.read_bind] at h
        cases hgate : buildRegistry lib prds store {} >>= change.admit with
        | error raised =>
            rw [hgate] at h
            exact (congrArg Prod.snd h).symm
        | ok u =>
            rw [hgate] at h
            exact appendLocked_error h
      · exact appendLocked_error h

/-! ## A part of a line -/

theorem length_of_mapM {α β : Type} {f : α → Option β} {xs : List α} {ys : List β}
    (h : xs.mapM f = some ys) : ys.length = xs.length := by
  induction xs generalizing ys with
  | nil =>
      obtain rfl : ys = [] := by simpa using h.symm
      rfl
  | cons x xs ih =>
      rw [List.mapM_cons] at h
      obtain ⟨y, -, hrest⟩ := Option.bind_eq_some_iff.mp h
      obtain ⟨zs, hzs, hys⟩ := Option.bind_eq_some_iff.mp hrest
      obtain rfl := Option.some.inj hys
      rw [List.length_cons, List.length_cons, ih hzs]

theorem brace_not_blank (rest : List Char) : stripText (String.ofList ('\x7b' :: rest)) ≠ "" := by
  intro heq
  have hchars := congrArg String.toList heq
  rw [stripText, String.toList_ofList, String.toList_ofList,
    List.dropWhile_cons_of_neg (by decide)] at hchars
  have hspace := List.rdropWhile_eq_nil_iff.mp hchars '\x7b' (by simp)
  exact absurd hspace (by decide)

theorem linesOf_lineText (hpart : part <+: lineText lib action) (hne : part ≠ []) :
    ∃ rest lines, linesOf part = ('\x7b' :: rest) :: lines := by
  obtain ⟨more, hmore⟩ := hpart
  cases part with
  | nil => exact absurd rfl hne
  | cons c part =>
      rw [lineText, SchedulingAction.modelDump, dumps_obj, List.cons_append, List.cons_append]
        at hmore
      obtain rfl : c = '\x7b' := (List.cons.inj hmore).1
      rw [linesOf_ne (by simp), splitLines_char (by simp), if_neg (by decide)]
      exact ⟨_, _, rfl⟩

theorem ledger_text (hread : readLedger lib store = .ok actions)
    (hend : Terminated store.ledger) :
    ∃ text : List Char, store.ledger.getD ByteArray.empty = (String.ofList text).toUTF8 ∧
      (text = [] ∨ text.getLast? = some '\n') ∧
        parsedLines ((linesOf text).map String.ofList) = some actions := by
  obtain ⟨hparsed, -, -⟩ := readLedger_ok.mp hread
  cases hledger : store.ledger with
  | none =>
      rw [hledger] at hparsed
      exact ⟨[], rfl, .inl rfl, hparsed⟩
  | some raw =>
      rw [hledger] at hparsed
      cases hdecoded : String.fromUTF8? raw with
      | none => simp [parsedActions, ledgerLines, hdecoded, Except.toOption] at hparsed
      | some text =>
          refine ⟨text.toList, ?_, hend raw text hledger hdecoded, ?_⟩
          · unfold String.fromUTF8? at hdecoded
            split at hdecoded
            · obtain rfl := Option.some.inj hdecoded
              rw [String.ofList_toList]
              rfl
            · cases hdecoded
          · rw [← splitlines_eq, String.ofList_toList]
            simpa [parsedActions, ledgerLines, hdecoded, Except.toOption] using hparsed

theorem stopped_ledger {text : List Char}
    (hbytes : store.ledger.getD ByteArray.empty = (String.ofList text).toUTF8) :
    (store.stopped part).ledger = some (String.ofList (text ++ part)).toUTF8 := by
  rw [Store.stopped, hbytes, String.ofList_append]
  rfl

/-- With a part of a line behind it, a ledger has more actions than it had, or some that do not
parse. -/
theorem parsedActions_stopped (hread : readLedger lib store = .ok actions)
    (hend : Terminated store.ledger) (hpart : part <+: lineText lib action) (hne : part ≠ [])
    {found : List SchedulingAction}
    (hfound : parsedActions (store.stopped part).ledger = some found) :
    actions.length < found.length := by
  obtain ⟨rest, lines, hlines⟩ := linesOf_lineText hpart hne
  obtain ⟨text, hbytes, htext, hold⟩ := ledger_text hread hend
  rw [stopped_ledger hbytes, parsedActions, ledgerLines, fromUTF8_toUTF8] at hfound
  simp only [Except.toOption, Option.bind_some, splitlines_eq, linesOf_append htext, hlines,
    List.map_append, List.map_cons] at hfound
  have hlength := length_of_mapM hfound
  rw [parsedLines] at hold
  rw [hlength, length_of_mapM hold, List.filter_append,
    List.filter_cons_of_pos (by simpa using brace_not_blank rest), List.length_append,
    List.length_cons]
  omega

theorem readLedger_stopped (hread : readLedger lib store = .ok actions)
    (hend : Terminated store.ledger) (hpart : part <+: lineText lib action) (hne : part ≠ []) :
    ∃ failure, readLedger lib (store.stopped part) = .error failure ∧
      failure.isLedgerError = true := by
  cases hleft : readLedger lib (store.stopped part) with
  | ok found =>
      obtain ⟨hfound, -, hanchor⟩ := readLedger_ok.mp hleft
      obtain ⟨-, -, hverify⟩ := readLedger_ok.mp hread
      have hmore := parsedActions_stopped hread hend hpart hne hfound
      -- one anchor cannot vouch for both lengths
      exfalso
      change verifyLedgerHeadAnchor lib store.anchor found = .ok () at hanchor
      unfold verifyLedgerHeadAnchor at hanchor hverify
      cases h : store.anchor with
      | none =>
          rw [h] at hanchor
          have hnil : found = [] := by simpa using hanchor
          rw [hnil] at hmore
          simp at hmore
      | some anchor =>
          rw [h] at hanchor hverify
          simp only [ite_eq_right_iff, reduceCtorEq, imp_false, not_or, not_not] at hanchor hverify
          omega
  | error failure =>
      refine ⟨failure, rfl, readLedger_error (fun bytes hbytes => ?_) hleft⟩
      obtain ⟨text, htext, -, -⟩ := ledger_text hread hend
      rw [stopped_ledger htext] at hbytes
      obtain rfl := Option.some.inj hbytes
      exact (String.ofList (text ++ part)).isValidUTF8

/-! ## What a stopped append leaves -/

/-- What holds of the files `left` where an append to `store` has stopped with `part` of its line
written. -/
structure Interrupted (lib : Stdlib) (store left : Store) (part : List Char) : Prop where
  /-- What was committed is there: the old ledger, in front, and its anchor. -/
  kept : ∃ more, left.ledger = some (store.ledger.getD ByteArray.empty ++ more)
  anchor : left.anchor = store.anchor
  /-- Before the first byte, readers and writers find the ledger they would have found. -/
  registry : part = [] → ∀ prds limits,
    buildRegistry lib prds left limits = buildRegistry lib prds store limits
  resumes : part = [] → ∀ prds (call : WriterCall),
    (call.run lib prds left).1 = (call.run lib prds store).1 ∧
      ∀ action store', call.run lib prds store = (.ok action, store') →
        call.run lib prds left = (.ok action, store')
  /-- From the first byte on, the registry is stale and every append is refused. -/
  stale : part ≠ [] → ∀ prds limits, ∃ registry,
    buildRegistry lib prds left limits = .ok registry ∧ registry.status = .staleSchedulingHead
  refused : part ≠ [] → ∀ prds (call : WriterCall), ∃ failure,
    call.run lib prds left = (.error failure, left)

/-- An append that stops before its anchor is published loses nothing, and is not read as done;
an append that raises leaves both files. -/
theorem append_interrupted (hread : readLedger lib store = .ok actions)
    (hend : Terminated store.ledger) (hpart : part <+: lineText lib action) :
    Interrupted lib store (store.stopped part) part ∧
      ∀ prds (call : WriterCall) failure store',
        call.run lib prds store = (.error failure, store') → store' = store := by
  refine ⟨?_, fun prds call failure store' => WriterCall.error⟩
  have hledger : ((store.stopped []).ledger.getD ByteArray.empty) =
      store.ledger.getD ByteArray.empty := by
    simp [Store.stopped]
  refine ⟨⟨_, rfl⟩, rfl, ?_, ?_, fun hne prds limits => ?_, fun hne prds call => ?_⟩
  · rintro rfl prds limits
    exact buildRegistry_congr readLedger_opened prds limits
  · rintro rfl prds call
    exact call.congr readLedger_opened hledger prds
  · obtain ⟨failure, hfailure, hledgerError⟩ := readLedger_stopped hread hend hpart hne
    exact buildRegistry_stale lib hfailure hledgerError
  · obtain ⟨failure, hfailure, -⟩ := readLedger_stopped hread hend hpart hne
    exact call.refused lib hfailure

end

/-! ### A first append that stops before its anchor -/

/-- An empty ledger, and the first line as far as its brace. -/
theorem append_interrupted_sample :
    Interrupted decimalStdlib Store.empty (Store.empty.stopped ['\x7b']) ['\x7b'] ∧
      ∀ prds (call : WriterCall) failure store',
        call.run decimalStdlib prds Store.empty = (.error failure, store') → store' = Store.empty := by
  refine @append_interrupted _ _ [] (sampleAdvance.request.action decimalStdlib []) _ rfl nofun ?_
  rw [lineText, SchedulingAction.modelDump, dumps_obj]
  exact ⟨_, rfl⟩

/-- The whole line is written and the anchor is not: no later call appends, and no registry is
built. -/
theorem stopped_append_bricks :
    ∃ action, extend decimalStdlib [] sampleAdvance.request = .ok action ∧
      ∀ prds (call : WriterCall), ∃ failure,
        call.run decimalStdlib prds (Store.empty.stopped (lineText decimalStdlib action)) =
          (.error failure, Store.empty.stopped (lineText decimalStdlib action)) := by
  have hvalid : (sampleAdvance.request.action decimalStdlib []).Valid := by
    change "a-1" ≠ "" ∧ 1 ≤ 0 + 1 ∧ (fromIsoformat "2026-07-24").isSome ∧ "receipt-1" ≠ "" ∧
      "operator" ≠ ""
    decide
  have hforward : ¬ "2026-07-24" < genesisEpochDate := by decide
  have hextend : extend decimalStdlib [] sampleAdvance.request =
      .ok (sampleAdvance.request.action decimalStdlib []) := by
    rw [extend]
    simp only [hvalid, if_true]
    exact if_neg fun h => hforward h.2
  refine ⟨_, hextend, fun prds call => ?_⟩
  obtain ⟨failure, hfailure, -⟩ := @readLedger_stopped decimalStdlib Store.empty [] _ _ rfl
    (by rintro _ _ ⟨⟩) List.prefix_rfl
    (show lineText decimalStdlib (sampleAdvance.request.action decimalStdlib []) ≠ [] by
      simp [lineText])
  exact call.refused decimalStdlib hfailure

end TrwMcp.Scheduling
