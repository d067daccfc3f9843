import TrwMcp.Scheduling.Ledger

/-!
# What the head anchor pins

* `loadLines_ok` — reading succeeds on the chains the lines parse to, and on nothing else.
* `chained_unique` — a chain is determined by its length and its head.
* `Written` — the stores the appends reach, with the actions they returned.
* `tamper_evident` — a file other than the one written is refused exactly when it decodes.
-/

namespace TrwMcp.Scheduling

open Handoff Intent Lib

section

variable {lib : Stdlib}

/-- The actions from `sequence` on, the first one chained to `previous`. -/
@[grind =] def Chained (lib : Stdlib) : String → Nat → List SchedulingAction → Prop
  | _, _, [] => True
  | previous, sequence, action :: actions =>
      action.sequence = sequence ∧ action.previousActionDigest = previous ∧
        Chained lib (actionDigest lib action) (sequence + 1) actions

/-- The digest after `actions`, where `previous` stood before them. -/
def headFrom (lib : Stdlib) (previous : String) (actions : List SchedulingAction) : String :=
  (actions.getLast?.map (actionDigest lib)).getD previous

theorem headFrom_genesis (actions : List SchedulingAction) :
    headFrom lib genesisDigest actions = ledgerHeadDigest lib actions := rfl

theorem headFrom_cons (previous : String) (action : SchedulingAction)
    (actions : List SchedulingAction) :
    headFrom lib previous (action :: actions) =
      headFrom lib (actionDigest lib action) actions := by
  cases actions with
  | nil => rfl
  | cons a actions => simp [headFrom, List.getLast?_cons]

theorem headFrom_snoc (previous : String) (actions : List SchedulingAction)
    (action : SchedulingAction) :
    headFrom lib previous (actions ++ [action]) = actionDigest lib action := by
  simp [headFrom]

theorem chained_snoc (previous : String) (sequence : Nat) (actions : List SchedulingAction)
    (action : SchedulingAction) :
    Chained lib previous sequence (actions ++ [action]) ↔
      Chained lib previous sequence actions ∧ action.sequence = sequence + actions.length ∧
        action.previousActionDigest = headFrom lib previous actions := by
  induction actions generalizing previous sequence with
  | nil => simp [Chained, headFrom]
  | cons a actions ih =>
      rw [List.cons_append, Chained, ih, Chained, headFrom_cons, List.length_cons]
      constructor
      · rintro ⟨hseq, hprev, hchain, hlast, hhead⟩
        exact ⟨⟨hseq, hprev, hchain⟩, by omega, hhead⟩
      · rintro ⟨⟨hseq, hprev, hchain⟩, hlast, hhead⟩
        exact ⟨hseq, hprev, hchain, by omega, hhead⟩

/-- Chains of one length with one head are one chain: the last actions have one digest, and with the
action comes the digest it was chained to. -/
theorem chained_unique (hfree : Function.Injective (actionDigest lib)) {previous : String}
    {sequence : Nat} {as bs : List SchedulingAction} (hlen : as.length = bs.length)
    (ha : Chained lib previous sequence as) (hb : Chained lib previous sequence bs)
    (hhead : headFrom lib previous as = headFrom lib previous bs) : as = bs := by
  induction as using List.reverseRecOn generalizing bs with
  | nil => exact (List.length_eq_zero_iff.mp hlen.symm).symm
  | append_singleton as a ih =>
      rcases List.eq_nil_or_concat bs with rfl | ⟨bs, b, rfl⟩
      · simp at hlen
      · rw [List.concat_eq_append] at *
        rw [headFrom_snoc, headFrom_snoc] at hhead
        obtain rfl := hfree hhead
        obtain ⟨hchain, -, hprev⟩ := (chained_snoc _ _ _ _).mp ha
        obtain ⟨hchain', -, hprev'⟩ := (chained_snoc _ _ _ _).mp hb
        rw [ih (by simpa using hlen) hchain hchain' (hprev.symm.trans hprev')]

/-! ## Reading -/

/-- The actions the lines parse to, blank lines skipped. -/
def parsedLines (lines : List String) : Option (List SchedulingAction) :=
  (lines.filter fun line => stripText line ≠ "").mapM parseAction

/-- The actions parsed from a file. -/
def parsedActions : Option ByteArray → Option (List SchedulingAction)
  | none => some []
  | some raw => (ledgerLines raw).toOption.bind parsedLines

/-- The file is absent or text. -/
def Decodes (raw : Option ByteArray) : Prop := ∀ bytes, raw = some bytes → bytes.IsValidUTF8

theorem parsedLines_blank {line : String} {lines : List String} (h : stripText line = "") :
    parsedLines (line :: lines) = parsedLines lines := by
  simp [parsedLines, h]

theorem parsedLines_cons {line : String} {lines : List String} (h : stripText line ≠ "") :
    parsedLines (line :: lines) =
      (parseAction line).bind fun action => (parsedLines lines).map (action :: ·) := by
  rw [parsedLines, List.filter_cons_of_pos (by simpa using h), List.mapM_cons]
  simp only [Option.bind_eq_bind, Option.pure_def, parsedLines, Option.map_eq_bind]
  rfl

/-- The loop, from its middle: it ends with the actions read and those still to read, chained to
each other. -/
theorem loadLines_ok {lineNo : Nat} {previous : String} {before actions : List SchedulingAction}
    {lines : List String} :
    loadLines lib lineNo previous before lines = .ok actions ↔
      ∃ more, parsedLines lines = some more ∧ actions = before ++ more ∧
        Chained lib previous (before.length + 1) more := by
  induction lines generalizing lineNo previous before with
  | nil =>
      simp only [loadLines, Except.ok.injEq]
      constructor
      · rintro rfl
        exact ⟨[], rfl, by simp, trivial⟩
      · rintro ⟨more, hmore, rfl, -⟩
        obtain rfl : [] = more := Option.some.inj hmore
        simp
  | cons line lines ih =>
      by_cases hblank : stripText line = ""
      · rw [loadLines, if_pos hblank, ih, parsedLines_blank hblank]
      · rw [loadLines, if_neg hblank, parsedLines_cons hblank]
        cases hparse : parseAction line with
        | none => simp
        | some action =>
            simp only [Option.bind_some, Option.map_eq_some_iff]
            by_cases hseq : action.sequence = before.length + 1
            · by_cases hprev : action.previousActionDigest = previous
              · rw [if_neg (by simpa using hseq), if_neg (by simpa using hprev), ih]
                constructor
                · rintro ⟨more, hmore, rfl, hchain⟩
                  refine ⟨action :: more, ⟨more, hmore, rfl⟩, by simp, hseq, hprev, ?_⟩
                  simpa using hchain
                · rintro ⟨_, ⟨more, hmore, rfl⟩, rfl, -, -, hchain⟩
                  exact ⟨more, hmore, by simp, by simpa using hchain⟩
              · rw [if_neg (by simpa using hseq), if_pos hprev]
                simp only [reduceCtorEq, false_iff]
                rintro ⟨_, ⟨more, -, rfl⟩, -, -, hchained, -⟩
                exact hprev hchained
            · rw [if_pos hseq]
              simp only [reduceCtorEq, false_iff]
              rintro ⟨_, ⟨more, -, rfl⟩, -, hchained, -⟩
              exact hseq hchained

theorem loadLines_error {lineNo : Nat} {previous : String} {before : List SchedulingAction}
    {lines : List String} {failure : Failure}
    (h : loadLines lib lineNo previous before lines = .error failure) :
    failure.isLedgerError = true := by
  induction lines generalizing lineNo previous before with
  | nil => cases h
  | cons line lines ih =>
      rw [loadLines] at h
      split at h
      · exact ih h
      · split at h
        · cases h
          rfl
        · split at h
          · cases h
            rfl
          · split at h
            · cases h
              rfl
            · exact ih h

theorem ledgerLines_isValid {raw : ByteArray} :
    raw.IsValidUTF8 ↔ ∃ lines, ledgerLines raw = .ok lines := by
  unfold ledgerLines String.fromUTF8?
  by_cases h : raw.IsValidUTF8
  · simp [h]
  · simp [h]

theorem loadLedger_ok {raw : Option ByteArray} {actions : List SchedulingAction} :
    loadLedger lib raw = .ok actions ↔
      parsedActions raw = some actions ∧ Chained lib genesisDigest 1 actions := by
  cases raw with
  | none =>
      simp only [loadLedger, parsedActions, Except.ok.injEq, Option.some.injEq]
      constructor
      · rintro rfl
        exact ⟨rfl, trivial⟩
      · exact fun h => h.1
  | some raw =>
      simp only [loadLedger, parsedActions, Lib.Except.bind_eq_ok]
      cases hlines : ledgerLines raw with
      | error failure => simp [Except.toOption]
      | ok lines =>
          simp only [Except.ok.injEq, exists_eq_left', loadLines_ok, List.nil_append,
            Except.toOption, Option.bind_some, List.length_nil, Nat.zero_add]
          constructor
          · rintro ⟨more, hmore, rfl, hchain⟩
            exact ⟨hmore, hchain⟩
          · rintro ⟨hparsed, hchain⟩
            exact ⟨actions, hparsed, rfl, hchain⟩

theorem readLedger_ok {store : Store} {actions : List SchedulingAction} :
    readLedger lib store = .ok actions ↔
      parsedActions store.ledger = some actions ∧ Chained lib genesisDigest 1 actions ∧
        verifyLedgerHeadAnchor lib store.anchor actions = .ok () := by
  simp only [readLedger, Lib.Except.bind_eq_ok, Lib.Except.pure_eq_ok]
  constructor
  · rintro ⟨found, hload, ⟨⟩, hverify, rfl⟩
    obtain ⟨hparsed, hchain⟩ := loadLedger_ok.mp hload
    exact ⟨hparsed, hchain, hverify⟩
  · rintro ⟨hparsed, hchain, hverify⟩
    exact ⟨actions, loadLedger_ok.mpr ⟨hparsed, hchain⟩, ⟨⟩, hverify, rfl⟩

theorem verify_error {anchor : Option Anchor} {actions : List SchedulingAction} {failure : Failure}
    (h : verifyLedgerHeadAnchor lib anchor actions = .error failure) :
    failure.isLedgerError = true := by
  unfold verifyLedgerHeadAnchor at h
  split at h
  · split at h
    · cases h
    · cases h
      rfl
  · split at h
    · cases h
      rfl
    · cases h

theorem readLedger_error {store : Store} {failure : Failure} (hdecodes : Decodes store.ledger)
    (h : readLedger lib store = .error failure) : failure.isLedgerError = true := by
  unfold readLedger at h
  cases hload : loadLedger lib store.ledger with
  | error other =>
      rw [hload] at h
      cases h
      cases hraw : store.ledger with
      | none => simp [hraw, loadLedger] at hload
      | some raw =>
          obtain ⟨lines, hlines⟩ := ledgerLines_isValid.mp (hdecodes raw hraw)
          rw [hraw, loadLedger, hlines] at hload
          exact loadLines_error hload
  | ok actions =>
      rw [hload] at h
      cases hverify : verifyLedgerHeadAnchor lib store.anchor actions with
      | error other =>
          have : readLedger lib store = .error other := by
            rw [readLedger, hload]
            simp only [bind, Except.bind, hverify]
          rw [readLedger, hload, h] at this
          cases this
          exact verify_error hverify
      | ok u => simp [bind, Except.bind, hverify, pure, Except.pure] at h

theorem readLedger_undecodable {store : Store} (hdecodes : ¬ Decodes store.ledger) :
    readLedger lib store = .error .unicodeDecodeError := by
  simp only [Decodes, not_forall] at hdecodes
  obtain ⟨raw, hraw, hinvalid⟩ := hdecodes
  have hlines : ledgerLines raw = .error .unicodeDecodeError := by
    unfold ledgerLines String.fromUTF8?
    simp [hinvalid]
  rw [readLedger, hraw, loadLedger, hlines]
  rfl

/-! ## Writing -/

/-- One append, and the action it returned. -/
def Appends (lib : Stdlib) (store : Store) (action : SchedulingAction) (store' : Store) : Prop :=
  ∃ request, appendLocked lib request store = (.ok action, store')

/-- The anchor at the end of `actions`. -/
def anchorOf (lib : Stdlib) (actions : List SchedulingAction) : Option Anchor :=
  actions.getLast?.map fun action => ⟨actions.length, actionDigest lib action⟩

theorem verify_anchorOf {actions found : List SchedulingAction} :
    verifyLedgerHeadAnchor lib (anchorOf lib actions) found = .ok () ↔
      found.length = actions.length ∧
        headFrom lib genesisDigest found = headFrom lib genesisDigest actions := by
  rcases List.eq_nil_or_concat actions with rfl | ⟨actions, action, rfl⟩
  · cases found with
    | nil => simp [verifyLedgerHeadAnchor, anchorOf]
    | cons a found => simp [verifyLedgerHeadAnchor, anchorOf]
  · rw [List.concat_eq_append]
    have hanchor : anchorOf lib (actions ++ [action]) =
        some ⟨(actions ++ [action]).length, actionDigest lib action⟩ := by
      simp [anchorOf]
    rw [hanchor, verifyLedgerHeadAnchor, headFrom_snoc, headFrom_genesis]
    by_cases hlen : found.length = (actions ++ [action]).length
    · by_cases hhead : ledgerHeadDigest lib found = actionDigest lib action
      · rw [if_neg (by simp only [hlen, hhead, ne_eq, not_true_eq_false, or_self, not_false_eq_true])]
        exact iff_of_true rfl ⟨hlen, hhead⟩
      · rw [if_pos (Or.inr hhead)]
        exact iff_of_false (by simp) fun h => hhead h.2
    · rw [if_pos (Or.inl hlen)]
      exact iff_of_false (by simp) fun h => hlen h.1

theorem appendLocked_ok {request : Request} {store store' : Store} {action : SchedulingAction}
    (h : appendLocked lib request store = (.ok action, store')) :
    ∃ actions, readLedger lib store = .ok actions ∧ extend lib actions request = .ok action ∧
      store' = store.write lib action := by
  unfold appendLocked at h
  split at h
  · exact absurd h Eff.raise_ne_ok
  · rw [Eff.read_bind] at h
    cases hread : readLedger lib store >>= fun actions => extend lib actions request with
    | error failure =>
        rw [hread] at h
        exact absurd h Eff.raise_ne_ok
    | ok a =>
        rw [hread] at h
        obtain ⟨actions, hactions, hextend⟩ := Lib.Except.bind_eq_ok.mp hread
        obtain ⟨_, _, hupdate, hpure⟩ := Eff.bind_eq_ok.mp h
        rw [Eff.update_eq_ok] at hupdate
        obtain ⟨rfl, rfl⟩ := Eff.pure_eq_ok.mp hpure
        exact ⟨actions, hactions, hextend, hupdate.symm⟩

theorem appendLocked_eq {request : Request} {store : Store} {action : SchedulingAction}
    (hreceipt : stripText request.authorizationReceipt ≠ "")
    (h : (readLedger lib store >>= fun actions => extend lib actions request) = .ok action) :
    appendLocked lib request store = (.ok action, store.write lib action) := by
  unfold appendLocked
  split
  · contradiction
  · rw [Eff.read_bind, h]
    rfl

theorem appendLocked_refused {request : Request} {store : Store} {failure : Failure}
    (h : readLedger lib store = .error failure) :
    ∃ raised, appendLocked lib request store = (.error raised, store) := by
  unfold appendLocked
  split
  · exact ⟨_, rfl⟩
  · exact ⟨failure, by rw [Eff.read_bind, h]; rfl⟩

theorem extend_ok {actions : List SchedulingAction} {request : Request}
    {action : SchedulingAction} (h : extend lib actions request = .ok action) :
    action = request.action lib actions := by
  unfold extend at h
  simp only at h
  split at h
  · cases h
  · split at h
    · exact (Except.ok.inj h).symm
    · cases h

/-- The anchor is at the end of what was returned, and what was returned is a chain. -/
structure Written (lib : Stdlib) (committed : List SchedulingAction) (store : Store) : Prop where
  anchor : store.anchor = anchorOf lib committed
  chained : Chained lib genesisDigest 1 committed

theorem Written.read_iff (hfree : Function.Injective (actionDigest lib))
    {committed actions : List SchedulingAction} {store : Store}
    (h : Written lib committed store) :
    readLedger lib store = .ok actions ↔
      parsedActions store.ledger = some actions ∧ actions = committed := by
  rw [readLedger_ok, h.anchor, verify_anchorOf]
  constructor
  · rintro ⟨hparsed, hchain, hlen, hhead⟩
    exact ⟨hparsed, chained_unique hfree hlen hchain h.chained hhead⟩
  · rintro ⟨hparsed, rfl⟩
    exact ⟨hparsed, h.chained, rfl, rfl⟩

theorem Written.step (hfree : Function.Injective (actionDigest lib))
    {committed : List SchedulingAction} {store store' : Store} {action : SchedulingAction}
    (h : Written lib committed store) (hstep : Appends lib store action store') :
    Written lib (committed ++ [action]) store' := by
  obtain ⟨request, happend⟩ := hstep
  obtain ⟨actions, hread, hextend, rfl⟩ := appendLocked_ok happend
  obtain ⟨-, rfl⟩ := (h.read_iff hfree).mp hread
  have haction := extend_ok hextend
  refine ⟨?_, (chained_snoc _ _ _ _).mpr ⟨h.chained, ?_, ?_⟩⟩
  · simp [Store.write, anchorOf, haction, Request.action]
  · simp [haction, Request.action, Nat.add_comm]
  · rw [haction]
    rfl

theorem run_written (hfree : Function.Injective (actionDigest lib))
    {committed : List SchedulingAction} {store : Store}
    (h : Run (Appends lib) Store.empty committed store) : Written lib committed store := by
  refine h.history_invariant (I := Written lib) ⟨rfl, trivial⟩ ?_
  intro xs s x s' _ hwritten hstep
  exact hwritten.step hfree hstep

end

end TrwMcp.Scheduling
