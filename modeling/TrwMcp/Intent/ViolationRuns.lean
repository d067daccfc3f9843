import TrwMcp.Intent.Violations
import TrwMcp.Intent.LedgerRuns

/-!
# What the gate and the check let through

In every world the operations reach, either the ledger verifies and holds the entries taken, in
order, or it is stuck and the gate blocks. So the gate lets through only what a later entry closed.
The check itself stops at the first failing claim: a token for that claim passes the claims behind
it too.
-/

namespace TrwMcp.Intent

open Handoff Lib

variable {lib : Stdlib} {ticks : Nat → Tick}

/-! ## The ledger against the calls it took -/

/-- The kind and the key of the entry a call records. -/
def RecordCall.key : RecordCall → String × Key
  | .override claimId filePath .. => ("override", claimId, filePath)
  | .violation claimId filePath .. => ("violation", claimId, filePath)
  | .resolution claimId filePath .. => ("resolution", claimId, filePath)

/-- The calls taken are the entries of a ledger that verifies. -/
def Live (lib : Stdlib) (w : World) : Prop :=
  ∃ entries, Good lib entries w.files ∧
    entries.map (entryKey lib) = w.appended.map RecordCall.key

/-- The ledger holds the calls it took, or no append succeeds any more. -/
def Sound (lib : Stdlib) (w : World) : Prop := Live lib w ∨ Stuck lib w.files

/-- What every computation keeps. -/
def Extends (lib : Stdlib) (w w' : World) : Prop :=
  w.appended <+: w'.appended ∧ (Sound lib w → Sound lib w')

theorem Extends.refl (w : World) : Extends lib w w := ⟨List.prefix_rfl, id⟩

theorem Extends.trans (u v w : World) (h : Extends lib u v) (h' : Extends lib v w) :
    Extends lib u w :=
  ⟨h.1.trans h'.1, fun hs => h'.2 (h.2 hs)⟩

theorem Extends.of_eq {w w' : World} (hfiles : w'.files = w.files)
    (happended : w'.appended = w.appended) : Extends lib w w' := by
  refine ⟨happended ▸ List.prefix_rfl, fun h => ?_⟩
  unfold Sound Live at h ⊢
  rwa [hfiles, happended]

theorem entryKey_written (call : RecordCall) (ts : String) (seq : Nat) (prev : String) :
    entryKey lib ((call.fields ts).written lib seq prev) = call.key := by
  rw [EntryFields.written, sortByKey_record]
  cases call <;> rfl

theorem Stuck.opened {files : Files} (h : Stuck lib files) :
    Stuck lib ⟨files.ledger.opened, files.checkpoint⟩ := by
  unfold Stuck at h ⊢
  rwa [opened_opened]

theorem stuck_emptied (ledger : FileText) : Stuck lib ⟨ledger, .text []⟩ := by
  unfold Stuck
  rw [Bool.eq_false_iff]
  intro hvalid
  obtain ⟨entries, head, -, -, hcheck, -, -⟩ := verify_valid hvalid
  have hread : readCheckpoint (.text []) = some (unusable "<unreadable>") := by
    rw [readCheckpoint]
    have hparse : parseText plainObject (String.ofList []) = .error _ := rfl
    rw [hparse]
  rw [hread] at hcheck
  have hcount : (-1 : Int) = entries.length := hcheck.1
  omega

theorem Live.stored {w : World} {call : RecordCall} {ts fresh : String} {written : Written}
    (h : Live lib w) (hcall : recordCall lib w.files call ts fresh = .ok written) :
    Live lib (w.append call written .stored) := by
  obtain ⟨entries, hgood, hkeys⟩ := h
  obtain ⟨seq, prev, hnext⟩ := hgood.done hcall
  refine ⟨_, hnext, ?_⟩
  rw [List.map_append, hkeys]
  simp [World.append, entryKey_written]

theorem Live.append {w : World} {call : RecordCall} {ts fresh : String} {written : Written}
    (h : Live lib w) (hcall : recordCall lib w.files call ts fresh = .ok written) (fate : Fate) :
    Sound lib (w.append call written fate) := by
  cases fate with
  | stored => exact .inl (h.stored hcall)
  | late => exact .inl (h.stored hcall)
  | failed => exact .inl h
  | emptied => exact .inr (stuck_emptied _)
  | torn length =>
      obtain ⟨entries, hgood, hkeys⟩ := h
      by_cases hnone : written.line.take length = []
      · -- nothing of the line is there: the ledger is as if only opened
        have hsame : w.files.ledger.extend (written.line.take length) = w.files.ledger.opened := by
          rw [hnone, FileText.extend, List.append_nil, hgood.ledger, chars_of_opened hgood.ledger]
        refine .inl ⟨entries, ?_, hkeys⟩
        change Good lib entries ⟨w.files.ledger.extend (written.line.take length), _⟩
        rw [hsame]
        exact hgood.refused (.inr rfl)
      · exact .inr (hgood.stopped hcall hnone (List.take_prefix _ _))

theorem appendEntry_takes (call : RecordCall) (w : World) :
    (appendEntry lib ticks call w).2.checked = w.checked ∧
      ((appendEntry lib ticks call w).2.appended = w.appended ∨
        (appendEntry lib ticks call w).2.appended = w.appended ++ [call]) := by
  unfold appendEntry
  simp only
  by_cases hblank : stripText call.reason = ""
  · simp [hblank]
  rw [if_neg hblank]
  by_cases hfailed : (ticks w.time).fate = .failed
  · simp [hfailed]
  rw [if_neg hfailed]
  cases recordCall lib w.files call (ticks w.time).ts (ticks w.time).fresh with
  | error reason => simp
  | ok written => cases (ticks w.time).fate <;> simp [World.append]

theorem appendEntry_extends (call : RecordCall) :
    Eff.Moves (Extends lib) (appendEntry lib ticks call) := by
  intro w
  unfold appendEntry
  simp only
  by_cases hblank : stripText call.reason = ""
  · rw [if_pos hblank]
    exact Extends.of_eq rfl rfl
  rw [if_neg hblank]
  by_cases hfailed : (ticks w.time).fate = .failed
  · rw [if_pos hfailed]
    exact Extends.of_eq rfl rfl
  rw [if_neg hfailed]
  cases hcall : recordCall lib w.files call (ticks w.time).ts (ticks w.time).fresh with
  | error reason =>
      refine ⟨List.prefix_rfl, ?_⟩
      rintro (⟨entries, hgood, hkeys⟩ | hstuck)
      · exact .inl ⟨entries, hgood.refused (.inr rfl), hkeys⟩
      · exact .inr hstuck.opened
  | ok written =>
      refine ⟨?_, ?_⟩
      · cases (ticks w.time).fate <;> simp [World.append]
      · rintro (hlive | hstuck)
        · have hnow : Live lib { w with time := w.time + 1 } := hlive
          exact hnow.append hcall _
        · obtain ⟨reason, herror⟩ := recordCall_stuck hstuck call (ticks w.time).ts
            (ticks w.time).fresh
          rw [hcall] at herror
          cases herror

theorem appendEntry_ok {call : RecordCall} {w w' : World}
    (h : appendEntry lib ticks call w = (.ok (), w')) :
    w'.appended = w.appended ++ [call] ∧ w'.checked = w.checked ∧ (Live lib w → Live lib w') := by
  unfold appendEntry at h
  simp only at h
  by_cases hblank : stripText call.reason = ""
  · simp [hblank] at h
  rw [if_neg hblank] at h
  by_cases hfailed : (ticks w.time).fate = .failed
  · simp [hfailed] at h
  rw [if_neg hfailed] at h
  cases hcall : recordCall lib w.files call (ticks w.time).ts (ticks w.time).fresh with
  | error reason => simp [hcall] at h
  | ok written =>
      by_cases hstored : (ticks w.time).fate = .stored
      · simp only [hcall, hstored, if_true] at h
        obtain rfl := (Prod.mk.inj h).2
        refine ⟨rfl, rfl, fun hlive => ?_⟩
        have hnow : Live lib { w with time := w.time + 1 } := hlive
        exact hnow.stored hcall
      · simp [hcall, hstored] at h

theorem mutate_frame (change : String → List Item → List Item) (w : World) :
    (mutate ticks change w).2.files = w.files ∧
      (mutate ticks change w).2.appended = w.appended ∧
      (mutate ticks change w).2.checked = w.checked := by
  unfold mutate
  simp only
  cases (ticks w.time).fate <;> exact ⟨rfl, rfl, rfl⟩

theorem mutate_extends (change : String → List Item → List Item) :
    Eff.Moves (Extends lib) (mutate ticks change) := fun w =>
  Extends.of_eq (mutate_frame change w).1 (mutate_frame change w).2.1

/-! ## Every computation extends the ledger -/

theorem clearViolation_extends (key : Key) (sessionId reason : String) :
    Eff.Moves (Extends lib) (clearViolation lib ticks key sessionId reason) := by
  unfold clearViolation
  refine Eff.moves_bind Extends.trans (Eff.moves_read Extends.refl) fun w => ?_
  split
  · exact Eff.moves_raise Extends.refl _
  · refine Eff.moves_bind Extends.trans (mutate_extends _) fun _ => ?_
    split_ifs
    · refine Eff.moves_handle Extends.trans ?_ fun _ => Eff.moves_pure Extends.refl _
      exact Eff.moves_bind Extends.trans (appendEntry_extends _) fun _ =>
        Eff.moves_pure Extends.refl _
    · exact Eff.moves_pure Extends.refl _

theorem overrideKeys_extends (sessionId reason : String) (keys : List Key) :
    Eff.Moves (Extends lib) (overrideKeys lib ticks sessionId reason keys) := by
  induction keys with
  | nil => exact Eff.moves_pure Extends.refl _
  | cons key keys ih =>
      unfold overrideKeys
      refine Eff.moves_bind Extends.trans ?_ fun recorded => ?_
      · refine Eff.moves_handle Extends.trans ?_ fun _ => Eff.moves_pure Extends.refl _
        exact Eff.moves_bind Extends.trans (appendEntry_extends _) fun _ =>
          Eff.moves_pure Extends.refl _
      · split_ifs
        · exact Eff.moves_bind Extends.trans (mutate_extends _) fun _ => ih
        · exact Eff.moves_pure Extends.refl _

theorem recordGateOverride_extends (inHistory : Bool) (sessionId reason : String) :
    Eff.Moves (Extends lib) (recordGateOverride lib ticks inHistory sessionId reason) := by
  unfold recordGateOverride
  refine Eff.moves_bind Extends.trans (Eff.moves_read Extends.refl) fun w => ?_
  by_cases hblank : stripText reason = ""
  · rw [if_pos hblank]
    exact Eff.moves_pure Extends.refl _
  rw [if_neg hblank]
  cases w.marker.load with
  | none => exact Eff.moves_pure Extends.refl _
  | some items =>
      by_cases htamper : (ledgerTamperReason lib w.files inHistory).isSome = true
      · simp only [htamper, if_true]
        exact Eff.moves_pure Extends.refl _
      simp only [htamper]
      cases openViolationKeys lib w.files.ledger with
      | error reason => exact Eff.moves_raise Extends.refl _
      | ok keys => exact overrideKeys_extends _ _ _

theorem breakGlass_extends (input : HookInput) (claim : MustNotHappenClaim) (reason : String) :
    Eff.Moves (Extends lib) (breakGlass lib ticks input claim reason) := by
  unfold breakGlass
  split
  · exact Eff.moves_pure Extends.refl _
  · refine Eff.moves_bind Extends.trans ?_ fun refused => ?_
    · refine Eff.moves_handle Extends.trans ?_ fun _ => Eff.moves_pure Extends.refl _
      exact Eff.moves_bind Extends.trans (appendEntry_extends _) fun _ =>
        Eff.moves_pure Extends.refl _
    · cases refused with
      | some e => exact Eff.moves_pure Extends.refl _
      | none =>
          exact Eff.moves_bind Extends.trans (clearViolation_extends _ _ _) fun _ =>
            Eff.moves_pure Extends.refl _

theorem violation_extends (input : HookInput) (claim : MustNotHappenClaim) (detail : String)
    (evaluable : Bool) :
    Eff.Moves (Extends lib) (violation lib ticks input claim detail evaluable) := by
  unfold violation
  refine Eff.moves_bind Extends.trans (breakGlass_extends _ _ _) fun override => ?_
  cases override with
  | some decision => exact Eff.moves_pure Extends.refl _
  | none =>
      refine Eff.moves_bind Extends.trans ?_ fun _ => ?_
      · exact Eff.moves_handle Extends.trans (appendEntry_extends _) fun _ =>
          Eff.moves_pure Extends.refl _
      · refine Eff.moves_bind Extends.trans ?_ fun _ => ?_
        · exact Eff.moves_bind Extends.trans (mutate_extends _) fun _ =>
            Eff.moves_pure Extends.refl _
        · split_ifs <;> exact Eff.moves_pure Extends.refl _

theorem checkFalsifiers_extends (input : HookInput) (claim : MustNotHappenClaim)
    (refs : List FalsifierRef) :
    Eff.Moves (Extends lib) (checkFalsifiers lib ticks input claim refs) := by
  induction refs with
  | nil => exact Eff.moves_pure Extends.refl _
  | cons ref refs ih =>
      unfold checkFalsifiers
      refine Eff.moves_bind Extends.trans (fun w => Extends.of_eq rfl rfl) fun _ => ?_
      simp only
      split_ifs
      · exact ih
      · exact Eff.moves_bind Extends.trans (violation_extends _ _ _ _) fun _ =>
          Eff.moves_pure Extends.refl _

theorem checkClaims_extends (input : HookInput) (claims : List MustNotHappenClaim) :
    Eff.Moves (Extends lib) (checkClaims lib ticks input claims) := by
  induction claims with
  | nil => exact Eff.moves_pure Extends.refl _
  | cons claim claims ih =>
      unfold checkClaims
      refine Eff.moves_bind Extends.trans (checkFalsifiers_extends _ _ _) fun decision => ?_
      cases decision with
      | some decision => exact Eff.moves_pure Extends.refl _
      | none => exact Eff.moves_bind Extends.trans (clearViolation_extends _ _ _) fun _ => ih

theorem postEditCheck_extends (input : HookInput) :
    Eff.Moves (Extends lib) (postEditCheck lib ticks input) := by
  unfold postEditCheck
  simp only
  split_ifs
  · exact Eff.moves_pure Extends.refl _
  · exact Eff.moves_pure Extends.refl _
  · split
    · exact Eff.moves_pure Extends.refl _
    · exact checkClaims_extends _ _

theorem sound_empty : Sound lib World.empty := .inl ⟨[], good_empty, rfl⟩

theorem run_sound {operations : List Operation} {w : World}
    (hrun : Run (OperationStep lib ticks) World.empty operations w) : Sound lib w := by
  refine Run.invariant sound_empty (fun w operation w' hw hstep => ?_) hrun
  obtain rfl : perform lib ticks w operation = w' := hstep
  cases operation with
  | postEdit input => exact (postEditCheck_extends input w).2 hw
  | gateOverride inHistory sessionId reason =>
      exact (recordGateOverride_extends inHistory sessionId reason w).2 hw
  | rewrite marker => exact hw

/-! ## The gate -/

/-- An entry closes the violations of its key. -/
def closes (entry : String × Key) (key : Key) : Prop :=
  (entry.1 = "resolution" ∨ entry.1 = "override") ∧ entry.2 = key

theorem mem_foldl_openStep {key : Key} {entries : List (String × Key)} {opened : List Key}
    (hkey : key ∈ opened) (hopen : ∀ entry ∈ entries, ¬ closes entry key) :
    key ∈ entries.foldl openStep opened := by
  induction entries generalizing opened with
  | nil => exact hkey
  | cons entry entries ih =>
      refine ih ?_ fun e he => hopen e (List.mem_cons_of_mem _ he)
      have hentry := hopen entry (by simp)
      unfold openStep
      split_ifs with hviolation hclosing
      · exact List.mem_insert_of_mem hkey
      · rw [List.mem_filter]
        refine ⟨hkey, ?_⟩
        simp only [ne_eq, decide_not, Bool.not_eq_eq_eq_not, Bool.not_true, decide_eq_false_iff_not]
        exact fun heq => hentry ⟨hclosing, heq.symm⟩
      · exact hkey

theorem closed_of_not_mem {key : Key} {before after : List (String × Key)}
    (h : key ∉ (before ++ ("violation", key) :: after).foldl openStep []) :
    ∃ entry ∈ after, closes entry key := by
  by_contra hnone
  simp only [not_exists, not_and] at hnone
  rw [List.foldl_append, List.foldl_cons] at h
  refine h (mem_foldl_openStep ?_ hnone)
  rw [openStep, if_pos rfl]
  exact List.mem_insert_self

theorem Sound.live {w : World} (h : Sound lib w) {inHistory : Bool}
    (htamper : ledgerTamperReason lib w.files inHistory = none) : Live lib w := by
  rcases h with hlive | hstuck
  · exact hlive
  exfalso
  rw [Stuck, verify_opened] at hstuck
  unfold ledgerTamperReason at htamper
  by_cases hexists : w.files.ledger.exists = true
  · simp [hexists, hstuck] at htamper
  · -- with neither file there is nothing to distrust
    have hledger : w.files.ledger = .missing := by
      cases hl : w.files.ledger with
      | missing => rfl
      | unreadable e => simp [hl, FileText.exists] at hexists
      | text cs => simp [hl, FileText.exists] at hexists
    have hcheckpoint : w.files.checkpoint = .missing := by
      cases hc : w.files.checkpoint with
      | missing => rfl
      | unreadable e => simp [hledger, hc, FileText.exists] at htamper
      | text cs => simp [hledger, hc, FileText.exists] at htamper
    have hfiles : w.files = ⟨.missing, .missing⟩ := by
      cases hf : w.files with
      | mk ledger checkpoint =>
          simp only [hf] at hledger hcheckpoint
          rw [hledger, hcheckpoint]
    obtain ⟨head, -, hvalid, -⟩ := (@good_empty lib).verified
    rw [hfiles, hvalid] at hstuck
    cases hstuck

theorem Live.openKeys {w : World} (h : Live lib w) :
    openViolationKeys lib w.files.ledger =
      .ok ((w.appended.map RecordCall.key).foldl openStep []) := by
  obtain ⟨entries, hgood, hkeys⟩ := h
  rw [openViolationKeys, hgood.read, ← hkeys]
  rfl

theorem mem_sortKeys {key : Key} {keys : List Key} : key ∈ sortKeys keys ↔ key ∈ keys := by
  rw [sortKeys, List.mem_mergeSort, List.mem_dedup]

theorem gate_none {inHistory : Bool} {w : World}
    (h : intentViolationGateBlock lib inHistory w = .ok none) :
    ledgerTamperReason lib w.files inHistory = none ∧
      openViolationKeys lib w.files.ledger = .ok [] := by
  unfold intentViolationGateBlock at h
  cases hload : w.marker.load with
  | none => simp [hload] at h
  | some current =>
      cases htamper : ledgerTamperReason lib w.files inHistory with
      | some tampered => simp [hload, htamper] at h
      | none =>
          cases hkeys : openViolationKeys lib w.files.ledger with
          | error reason => simp [hload, htamper, hkeys] at h
          | ok keys =>
              simp only [hload, htamper, hkeys] at h
              by_cases hempty : (current ++ (sortKeys (keys.filter
                  (· ∉ current.map itemKey))).map ledgerItem).isEmpty = true
              swap
              · rw [if_neg hempty] at h
                simp at h
              simp only [List.isEmpty_iff, List.append_eq_nil_iff, List.map_eq_nil_iff] at hempty
              obtain ⟨hcurrent, hsorted⟩ := hempty
              refine ⟨rfl, congrArg Except.ok (List.eq_nil_iff_forall_not_mem.mpr fun key hkey => ?_)⟩
              have hmem : key ∈ sortKeys (keys.filter (· ∉ current.map itemKey)) := by
                rw [mem_sortKeys, List.mem_filter]
                exact ⟨hkey, by simp [hcurrent]⟩
              rw [hsorted] at hmem
              cases hmem

/-! ## The override at the gate -/

theorem overrideKeys_true {sessionId reason : String} {keys : List Key} {w w' : World}
    (hlive : Live lib w)
    (h : overrideKeys lib ticks sessionId reason keys w = (.ok true, w')) :
    Live lib w' ∧ ∃ new, w'.appended = w.appended ++ new ∧
      ∀ key ∈ keys, ("override", key) ∈ new.map RecordCall.key := by
  induction keys generalizing w with
  | nil =>
      obtain ⟨-, rfl⟩ := Eff.pure_eq_ok.mp h
      exact ⟨hlive, [], by simp, by simp⟩
  | cons key keys ih =>
      unfold overrideKeys at h
      obtain ⟨recorded, w₁, hrecord, hrest⟩ := Eff.bind_eq_ok.mp h
      cases recorded with
      | false =>
          simp only [Bool.false_eq_true, if_false] at hrest
          simpa using (Eff.pure_eq_ok.mp hrest).1
      | true =>
          simp only [if_true] at hrest
          obtain hdone | ⟨e, t, -, -, hfalse⟩ := Eff.handle_eq_ok.mp hrecord
          swap
          · simpa using (Eff.pure_eq_ok.mp hfalse).1
          obtain ⟨u, w₂, happend, hpure⟩ := Eff.bind_eq_ok.mp hdone
          obtain ⟨-, rfl⟩ := Eff.pure_eq_ok.mp hpure
          obtain ⟨htaken, -, hkept⟩ := appendEntry_ok happend
          obtain ⟨b, w₃, hmutate, hloop⟩ := Eff.bind_eq_ok.mp hrest
          obtain ⟨hfiles, happended, -⟩ :=
            @mutate_frame ticks (fun _ entries => dropKey key entries) w₂
          rw [hmutate] at hfiles happended
          have hlive₃ : Live lib w₃ := by
            have hlive₂ := hkept hlive
            unfold Live at hlive₂ ⊢
            rwa [hfiles, happended]
          obtain ⟨hlive', new, hnew, hkeys⟩ := ih hlive₃ hloop
          refine ⟨hlive',
            .override key.1 key.2 "FR07" sessionId (stripText reason) "blocked" :: new, ?_, ?_⟩
          · rw [hnew, happended, htaken, List.append_assoc]
            rfl
          · intro k hk
            rw [List.map_cons, List.mem_cons]
            rcases List.mem_cons.mp hk with rfl | hk
            · exact .inl rfl
            · exact .inr (hkeys k hk)

theorem recordGateOverride_true {inHistory : Bool} {sessionId reason : String} {w w' : World}
    (hsound : Sound lib w)
    (h : recordGateOverride lib ticks inHistory sessionId reason w = (.ok true, w')) :
    ∃ keys items, openViolationKeys lib w.files.ledger = .ok keys ∧ w.marker.load = some items ∧
      Live lib w' ∧ ∃ new, w'.appended = w.appended ++ new ∧
        ∀ key ∈ keys ++ items.map itemKey, ("override", key) ∈ new.map RecordCall.key := by
  unfold recordGateOverride at h
  obtain ⟨w₀, w₁, hread, h⟩ := Eff.bind_eq_ok.mp h
  obtain ⟨rfl, rfl⟩ := Eff.read_eq_ok.mp hread
  by_cases hblank : stripText reason = ""
  · rw [if_pos hblank] at h
    simpa using (Eff.pure_eq_ok.mp h).1
  rw [if_neg hblank] at h
  cases hload : w.marker.load with
  | none =>
      simp only [hload] at h
      simpa using (Eff.pure_eq_ok.mp h).1
  | some items =>
      simp only [hload] at h
      cases htamper : ledgerTamperReason lib w.files inHistory with
      | some tampered =>
          simp only [htamper, Option.isSome_some, if_true] at h
          simpa using (Eff.pure_eq_ok.mp h).1
      | none =>
          simp only [htamper, Option.isSome_none, Bool.false_eq_true, if_false] at h
          have hlive := hsound.live htamper
          simp only [hlive.openKeys] at h
          obtain ⟨hlive', new, hnew, hkeys⟩ := overrideKeys_true hlive h
          refine ⟨_, items, hlive.openKeys, rfl, hlive', new, hnew, fun key hkey => ?_⟩
          exact hkeys key (mem_sortKeys.mpr hkey)

/-! ## The loop of the check -/

/-- All falsifiers of the claim pass. -/
def HookInput.passes (input : HookInput) (claim : MustNotHappenClaim) : Bool :=
  claim.falsifiers.all fun ref => (input.runFalsifier claim ref).passed

/-- The falsifiers of a claim, as the check notes them. -/
def pairs (claim : MustNotHappenClaim) : List (MustNotHappenClaim × FalsifierRef) :=
  claim.falsifiers.map (claim, ·)

/-- No falsifier is run and nothing but a resolution is recorded. -/
def Quiet (w w' : World) : Prop :=
  w'.checked = w.checked ∧
    ∃ new, w'.appended = w.appended ++ new ∧ ∀ key, ("override", key) ∉ new.map RecordCall.key

theorem Quiet.refl (w : World) : Quiet w w := ⟨rfl, [], by simp, by simp⟩

theorem Quiet.trans (u v w : World) (h : Quiet u v) (h' : Quiet v w) : Quiet u w := by
  obtain ⟨hchecked, new, hnew, hkeys⟩ := h
  obtain ⟨hchecked', new', hnew', hkeys'⟩ := h'
  refine ⟨hchecked'.trans hchecked, new ++ new', ?_, fun key hkey => ?_⟩
  · rw [hnew', hnew, List.append_assoc]
  · rw [List.map_append, List.mem_append] at hkey
    exact hkey.elim (hkeys key) (hkeys' key)

theorem mutate_quiet (change : String → List Item → List Item) :
    Eff.Moves Quiet (mutate ticks change) := fun w =>
  ⟨(mutate_frame change w).2.2, [], by simpa using (mutate_frame change w).2.1, by simp⟩

theorem appendEntry_quiet {call : RecordCall} (hcall : call.key.1 ≠ "override") :
    Eff.Moves Quiet (appendEntry lib ticks call) := by
  intro w
  obtain ⟨hchecked, hsame | htaken⟩ := @appendEntry_takes lib ticks call w
  · exact ⟨hchecked, [], by simpa using hsame, by simp⟩
  · refine ⟨hchecked, [call], htaken, fun key hkey => hcall ?_⟩
    rw [List.map_singleton, List.mem_singleton] at hkey
    rw [← hkey]

theorem clearViolation_quiet (key : Key) (sessionId reason : String) :
    Eff.Moves Quiet (clearViolation lib ticks key sessionId reason) := by
  unfold clearViolation
  refine Eff.moves_bind Quiet.trans (Eff.moves_read Quiet.refl) fun w => ?_
  cases openViolationKeys lib w.files.ledger with
  | error reason => exact Eff.moves_raise Quiet.refl _
  | ok keys =>
      refine Eff.moves_bind Quiet.trans (mutate_quiet _) fun _ => ?_
      split_ifs
      · refine Eff.moves_handle Quiet.trans ?_ fun _ => Eff.moves_pure Quiet.refl _
        exact Eff.moves_bind Quiet.trans (appendEntry_quiet (by simp [RecordCall.key])) fun _ =>
          Eff.moves_pure Quiet.refl _
      · exact Eff.moves_pure Quiet.refl _

theorem breakGlass_allow {input : HookInput} {claim : MustNotHappenClaim} {reason : String}
    {w w' : World} {decision : HookDecision}
    (h : breakGlass lib ticks input claim reason w = (.ok (some decision), w'))
    (hallow : decision.code = allow) :
    w'.checked = w.checked ∧ ∃ new, w'.appended = w.appended ++ new ∧
      ∀ key, ("override", key) ∈ new.map RecordCall.key ↔ key = (claim.claimId, input.relPath) := by
  unfold breakGlass at h
  cases htoken : input.token claim.claimId input.relPath with
  | none =>
      simp only [htoken] at h
      simpa using (Eff.pure_eq_ok.mp h).1
  | some token =>
      simp only [htoken] at h
      obtain ⟨refused, w₁, hrecord, hrest⟩ := Eff.bind_eq_ok.mp h
      cases refused with
      | some e =>
          simp only at hrest
          have hblock := (Eff.pure_eq_ok.mp hrest).1
          rw [← Option.some.inj hblock] at hallow
          simp [block, allow] at hallow
      | none =>
          simp only at hrest
          obtain hdone | ⟨e, t, -, -, hcaught⟩ := Eff.handle_eq_ok.mp hrecord
          swap
          · simpa using (Eff.pure_eq_ok.mp hcaught).1
          obtain ⟨u, w₂, happend, hpure⟩ := Eff.bind_eq_ok.mp hdone
          obtain ⟨-, rfl⟩ := Eff.pure_eq_ok.mp hpure
          obtain ⟨htaken, hchecked, -⟩ := appendEntry_ok happend
          obtain ⟨b, w₃, hclear, hend⟩ := Eff.bind_eq_ok.mp hrest
          obtain ⟨-, rfl⟩ := Eff.pure_eq_ok.mp hend
          obtain ⟨hchecked', new, hnew, hkeys⟩ := (clearViolation_quiet _ _ _).at hclear
          refine ⟨hchecked'.trans hchecked, .override claim.claimId input.relPath "FR07"
            input.sessionId ("break-glass token " ++ token ++ ": " ++ reason) "break_glass" :: new,
            ?_, fun key => ?_⟩
          · rw [hnew, htaken, List.append_assoc]
            rfl
          · rw [List.map_cons, List.mem_cons]
            constructor
            · rintro (hkey | hkey)
              · exact (Prod.mk.inj hkey).2
              · exact absurd hkey (hkeys key)
            · rintro rfl
              exact .inl rfl

theorem violation_allow {input : HookInput} {claim : MustNotHappenClaim} {detail : String}
    {evaluable : Bool} {w w' : World} {decision : HookDecision}
    (h : violation lib ticks input claim detail evaluable w = (.ok decision, w'))
    (hallow : decision.code = allow) :
    w'.checked = w.checked ∧ ∃ new, w'.appended = w.appended ++ new ∧
      ∀ key, ("override", key) ∈ new.map RecordCall.key ↔ key = (claim.claimId, input.relPath) := by
  unfold violation at h
  obtain ⟨override, w₁, hglass, hrest⟩ := Eff.bind_eq_ok.mp h
  cases override with
  | some d =>
      obtain ⟨rfl, rfl⟩ := Eff.pure_eq_ok.mp hrest
      exact breakGlass_allow hglass hallow
  | none =>
      obtain ⟨u, w₂, -, hrest⟩ := Eff.bind_eq_ok.mp hrest
      obtain ⟨u', w₃, -, hrest⟩ := Eff.bind_eq_ok.mp hrest
      have hblock : decision.code = block := by
        cases evaluable with
        | true =>
            simp only [if_true] at hrest
            exact congrArg HookDecision.code (Eff.pure_eq_ok.mp hrest).1.symm
        | false =>
            simp only [Bool.false_eq_true, if_false] at hrest
            exact congrArg HookDecision.code (Eff.pure_eq_ok.mp hrest).1.symm
      rw [hblock] at hallow
      simp [block, allow] at hallow

theorem checkFalsifiers_none {input : HookInput} {claim : MustNotHappenClaim}
    {refs : List FalsifierRef} {w w' : World}
    (h : checkFalsifiers lib ticks input claim refs w = (.ok none, w')) :
    (∀ ref ∈ refs, (input.runFalsifier claim ref).passed = true) ∧
      w'.checked = w.checked ++ refs.map (claim, ·) ∧ w'.appended = w.appended := by
  induction refs generalizing w with
  | nil =>
      obtain ⟨-, rfl⟩ := Eff.pure_eq_ok.mp h
      exact ⟨by simp, by simp, rfl⟩
  | cons ref refs ih =>
      unfold checkFalsifiers at h
      obtain ⟨u, w₁, hnote, hrest⟩ := Eff.bind_eq_ok.mp h
      obtain rfl := Eff.update_eq_ok.mp hnote
      by_cases hpassed : (input.runFalsifier claim ref).passed = true
      · rw [if_pos hpassed] at hrest
        obtain ⟨hall, hchecked, happended⟩ := ih hrest
        refine ⟨?_, ?_, happended⟩
        · intro r hr
          rcases List.mem_cons.mp hr with rfl | hr
          · exact hpassed
          · exact hall r hr
        · rw [hchecked, List.map_cons, List.append_assoc]
          rfl
      · rw [if_neg hpassed] at hrest
        obtain ⟨decision, w₂, -, hend⟩ := Eff.bind_eq_ok.mp hrest
        simpa using (Eff.pure_eq_ok.mp hend).1

/-- A failing claim let through: its falsifiers up to the first that fails were run, and it was
overridden. -/
theorem checkFalsifiers_allow {input : HookInput} {claim : MustNotHappenClaim}
    {refs : List FalsifierRef} {w w' : World} {decision : HookDecision}
    (h : checkFalsifiers lib ticks input claim refs w = (.ok (some decision), w'))
    (hallow : decision.code = allow) :
    (∃ ref ∈ refs, (input.runFalsifier claim ref).passed = false) ∧
      (∃ part, part ⊆ refs ∧ w'.checked = w.checked ++ part.map (claim, ·)) ∧
      ∃ new, w'.appended = w.appended ++ new ∧
        ∀ key, ("override", key) ∈ new.map RecordCall.key ↔
          key = (claim.claimId, input.relPath) := by
  induction refs generalizing w with
  | nil => simpa using (Eff.pure_eq_ok.mp h).1
  | cons ref refs ih =>
      unfold checkFalsifiers at h
      obtain ⟨u, w₁, hnote, hrest⟩ := Eff.bind_eq_ok.mp h
      obtain rfl := Eff.update_eq_ok.mp hnote
      by_cases hpassed : (input.runFalsifier claim ref).passed = true
      · rw [if_pos hpassed] at hrest
        obtain ⟨⟨r, hr, hfails⟩, ⟨part, hpart, hchecked⟩, hnew⟩ := ih hrest
        refine ⟨⟨r, List.mem_cons_of_mem _ hr, hfails⟩, ⟨ref :: part, ?_, ?_⟩, hnew⟩
        · exact List.cons_subset_cons _ hpart
        · rw [hchecked, List.map_cons, List.append_assoc]
          rfl
      · rw [if_neg hpassed] at hrest
        obtain ⟨d, w₂, hviolation, hend⟩ := Eff.bind_eq_ok.mp hrest
        obtain ⟨hd, rfl⟩ := Eff.pure_eq_ok.mp hend
        obtain rfl := Option.some.inj hd
        obtain ⟨hchecked, hnew⟩ := violation_allow hviolation hallow
        refine ⟨⟨ref, by simp, by simpa using hpassed⟩, ⟨[ref], by simp, ?_⟩, hnew⟩
        rw [hchecked]
        rfl

theorem checkClaims_allow {input : HookInput} {claims : List MustNotHappenClaim} {w w' : World}
    {decision : HookDecision}
    (h : checkClaims lib ticks input claims w = (.ok decision, w'))
    (hallow : decision.code = allow) :
    ∃ ran new, w'.checked = w.checked ++ ran ∧ w'.appended = w.appended ++ new ∧
      match claims.dropWhile input.passes with
      | [] => ran = claims.flatMap pairs ∧ ∀ key, ("override", key) ∉ new.map RecordCall.key
      | claim :: _ =>
          (∃ part, part ⊆ claim.falsifiers ∧
            ran = (claims.takeWhile input.passes).flatMap pairs ++ part.map (claim, ·)) ∧
          ∀ key, ("override", key) ∈ new.map RecordCall.key ↔
            key = (claim.claimId, input.relPath) := by
  induction claims generalizing w with
  | nil =>
      obtain ⟨-, rfl⟩ := Eff.pure_eq_ok.mp h
      exact ⟨[], [], by simp, by simp, rfl, by simp⟩
  | cons claim claims ih =>
      unfold checkClaims at h
      obtain ⟨checked, w₁, hcheck, hrest⟩ := Eff.bind_eq_ok.mp h
      cases checked with
      | some d =>
          obtain ⟨rfl, rfl⟩ := Eff.pure_eq_ok.mp hrest
          obtain ⟨⟨ref, href, hfails⟩, ⟨part, hpart, hchecked⟩, new, hnew, hkeys⟩ :=
            checkFalsifiers_allow hcheck hallow
          have hpasses : ¬ input.passes claim = true := by
            intro hall
            have := List.all_eq_true.mp hall ref href
            rw [hfails] at this
            cases this
          refine ⟨part.map (claim, ·), new, hchecked, hnew, ?_⟩
          rw [List.dropWhile_cons_of_neg hpasses, List.takeWhile_cons_of_neg hpasses]
          exact ⟨⟨part, hpart, rfl⟩, hkeys⟩
      | none =>
          obtain ⟨hall, hchecked, happended⟩ := checkFalsifiers_none hcheck
          obtain ⟨b, w₂, hclear, hloop⟩ := Eff.bind_eq_ok.mp hrest
          obtain ⟨hchecked', new', hnew', hquiet⟩ := (clearViolation_quiet _ _ _).at hclear
          obtain ⟨ran, new, hran, hnew, hcases⟩ := ih hloop
          have hpasses : input.passes claim = true := List.all_eq_true.mpr hall
          refine ⟨pairs claim ++ ran, new' ++ new, ?_, ?_, ?_⟩
          · rw [hran, hchecked', hchecked, List.append_assoc]
            rfl
          · rw [hnew, hnew', happended, List.append_assoc]
          · have hmem : ∀ key, ("override", key) ∈ (new' ++ new).map RecordCall.key ↔
                ("override", key) ∈ new.map RecordCall.key := by
              intro key
              rw [List.map_append, List.mem_append]
              exact ⟨fun hk => hk.resolve_left (hquiet key), .inr⟩
            rw [List.dropWhile_cons_of_pos hpasses]
            cases hdrop : claims.dropWhile input.passes with
            | nil =>
                simp only [hdrop] at hcases
                refine ⟨by rw [hcases.1, List.flatMap_cons], fun key => ?_⟩
                rw [hmem]
                exact hcases.2 key
            | cons first rest =>
                simp only [hdrop] at hcases
                obtain ⟨⟨part, hpart, hsplit⟩, hkeys⟩ := hcases
                refine ⟨⟨part, hpart, ?_⟩, fun key => (hmem key).trans (hkeys key)⟩
                rw [hsplit, List.takeWhile_cons_of_pos hpasses, List.flatMap_cons,
                  List.append_assoc]

/-! ## What is let through -/

/-- The claim's falsifiers were all run and passed, or an override for it and the path was
appended. -/
def Enforced (input : HookInput) (ran : List (MustNotHappenClaim × FalsifierRef))
    (new : List RecordCall) (claim : MustNotHappenClaim) : Prop :=
  (∀ ref ∈ claim.falsifiers,
    (claim, ref) ∈ ran ∧ (input.runFalsifier claim ref).passed = true) ∨
  ("override", claim.claimId, input.relPath) ∈ new.map RecordCall.key

/-- Behind the first claim that fails, every claim has its id, was met before it, or has no
falsifier. -/
def NothingSkipped (input : HookInput) : Prop :=
  match (enforceableClaims input).dropWhile input.passes with
  | [] => True
  | claim :: rest => ∀ d ∈ rest, d ∈ (enforceableClaims input).takeWhile input.passes ∨
      d.claimId = claim.claimId ∨ d.falsifiers = []

theorem mem_flatMap_pairs {claims : List MustNotHappenClaim} {claim : MustNotHappenClaim}
    {ref : FalsifierRef} :
    (claim, ref) ∈ claims.flatMap pairs ↔ claim ∈ claims ∧ ref ∈ claim.falsifiers := by
  simp only [List.mem_flatMap, pairs, List.mem_map, Prod.mk.injEq]
  constructor
  · rintro ⟨c, hc, r, hr, rfl, rfl⟩
    exact ⟨hc, hr⟩
  · rintro ⟨hc, hr⟩
    exact ⟨claim, hc, ref, hr, rfl, rfl⟩

theorem enforced_of_mem_takeWhile {input : HookInput} {claims : List MustNotHappenClaim}
    {claim : MustNotHappenClaim} {more : List (MustNotHappenClaim × FalsifierRef)}
    {new : List RecordCall} (h : claim ∈ claims.takeWhile input.passes) :
    Enforced input ((claims.takeWhile input.passes).flatMap pairs ++ more) new claim := by
  have hpasses : input.passes claim = true := List.mem_takeWhile_imp h
  refine .inl fun ref href => ⟨?_, List.all_eq_true.mp hpasses ref href⟩
  exact List.mem_append_left _ (mem_flatMap_pairs.mpr ⟨h, href⟩)

/-- An edit let through: every claim is enforced exactly when the first failing claim hides no
other. -/
theorem enforced_iff {input : HookInput} {w w' : World} {decision : HookDecision}
    (h : postEditCheck lib ticks input w = (.ok decision, w')) (hallow : decision.code = allow)
    (hescaped : input.escaped = false) (hreadable : input.unreadable = none) :
    ∃ ran new, w'.checked = w.checked ++ ran ∧ w'.appended = w.appended ++ new ∧
      ((∀ claim ∈ enforceableClaims input, Enforced input ran new claim) ↔
        NothingSkipped input) := by
  unfold postEditCheck at h
  by_cases hempty : (enforceableClaims input).isEmpty = true
  · simp only [hempty, if_true] at h
    obtain ⟨-, rfl⟩ := Eff.pure_eq_ok.mp h
    refine ⟨[], [], by simp, by simp, ?_⟩
    rw [List.isEmpty_iff] at hempty
    simp [NothingSkipped, hempty]
  simp only [hempty, hescaped, hreadable, Bool.false_eq_true, if_false] at h
  obtain ⟨ran, new, hran, hnew, hcases⟩ := checkClaims_allow h hallow
  refine ⟨ran, new, hran, hnew, ?_⟩
  unfold NothingSkipped
  have hsplit := List.takeWhile_append_dropWhile (p := input.passes) (l := enforceableClaims input)
  cases hdrop : (enforceableClaims input).dropWhile input.passes with
  | nil =>
      simp only [hdrop] at hcases
      rw [hdrop, List.append_nil] at hsplit
      refine iff_of_true (fun claim hclaim => ?_) trivial
      have hmem : claim ∈ (enforceableClaims input).takeWhile input.passes := by
        rwa [hsplit]
      have henforced := @enforced_of_mem_takeWhile input _ claim [] new hmem
      rwa [List.append_nil, hsplit, ← hcases.1] at henforced
  | cons first rest =>
      simp only [hdrop] at hcases ⊢
      obtain ⟨⟨part, hpart, rfl⟩, hkeys⟩ := hcases
      constructor
      · intro hall d hd
        have hmem : d ∈ enforceableClaims input := by
          rw [← hsplit, hdrop]
          exact List.mem_append_right _ (List.mem_cons_of_mem _ hd)
        rcases hall d hmem with hrun | hover
        · by_cases hnone : d.falsifiers = []
          · exact .inr (.inr hnone)
          obtain ⟨ref, href⟩ := List.exists_mem_of_ne_nil _ hnone
          rcases List.mem_append.mp (hrun ref href).1 with hbefore | hfirst
          · exact .inl (mem_flatMap_pairs.mp hbefore).1
          · obtain ⟨r, -, heq⟩ := List.mem_map.mp hfirst
            exact .inr (.inl (congrArg (·.1.claimId) heq).symm)
        · exact .inr (.inl (congrArg Prod.fst ((hkeys _).mp hover)))
      · intro hrest claim hclaim
        rw [← hsplit, hdrop, List.mem_append, List.mem_cons] at hclaim
        rcases hclaim with hbefore | rfl | hafter
        · exact enforced_of_mem_takeWhile hbefore
        · exact .inr ((hkeys _).mpr rfl)
        · rcases hrest claim hafter with hbefore | hid | hnone
          · exact enforced_of_mem_takeWhile hbefore
          · exact .inr ((hkeys _).mpr (by rw [hid]))
          · exact .inl fun ref href => absurd href (by simp [hnone])

/-- An edit let through leaves no matching claim behind exactly when the first failing claim hides
none. In every world the operations reach, a silent gate means that every violation taken was closed
by a later entry, and a granted override wrote an entry for every key that was open. -/
theorem violations_enforced {operations : List Operation} {w : World}
    (hrun : Run (OperationStep lib ticks) World.empty operations w) :
    (∀ input w₀ decision w₁, postEditCheck lib ticks input w₀ = (.ok decision, w₁) →
      decision.code = allow → input.escaped = false → input.unreadable = none →
      ∃ ran new, w₁.checked = w₀.checked ++ ran ∧ w₁.appended = w₀.appended ++ new ∧
        ((∀ claim ∈ enforceableClaims input, Enforced input ran new claim) ↔
          NothingSkipped input)) ∧
    (∀ inHistory, intentViolationGateBlock lib inHistory w = .ok none →
      ∃ entries, readEntries w.files.ledger = .ok entries ∧
        entries.map (entryKey lib) = w.appended.map RecordCall.key ∧
        ∀ before key after, entries.map (entryKey lib) = before ++ ("violation", key) :: after →
          ∃ entry ∈ after, closes entry key) ∧
    ∀ inHistory sessionId reason w',
      recordGateOverride lib ticks inHistory sessionId reason w = (.ok true, w') →
      ∃ keys items entries new, openViolationKeys lib w.files.ledger = .ok keys ∧
        w.marker.load = some items ∧ readEntries w'.files.ledger = .ok entries ∧
        entries.map (entryKey lib) = w.appended.map RecordCall.key ++ new ∧
        ∀ key ∈ keys ++ items.map itemKey, ("override", key) ∈ new := by
  have hsound := run_sound hrun
  refine ⟨fun input w₀ decision w₁ => enforced_iff, ?_, ?_⟩
  · intro inHistory hnone
    obtain ⟨htamper, hkeys⟩ := gate_none hnone
    have hlive := hsound.live htamper
    rw [hlive.openKeys] at hkeys
    obtain ⟨entries, hgood, hentries⟩ := hlive
    refine ⟨entries, hgood.read, hentries, fun before key after hsplit => ?_⟩
    refine @closed_of_not_mem key before after ?_
    rw [← hsplit, hentries, Except.ok.inj hkeys]
    simp
  · intro inHistory sessionId reason w' htrue
    obtain ⟨keys, items, hkeys, hload, ⟨entries, hgood, hentries⟩, new, hnew, hall⟩ :=
      recordGateOverride_true hsound htrue
    refine ⟨keys, items, entries, new.map RecordCall.key, hkeys, hload, hgood.read, ?_, hall⟩
    rw [hentries, hnew, List.map_append]

/-! ## Two claims on one path -/

theorem appendEntry_stored {w : World} {call : RecordCall} (hlive : Live lib w)
    (hreason : stripText call.reason ≠ "")
    (hshort : (Nat.toDigits 10 (w.appended.length + 1)).length ≤ maxIntDigits)
    (hfate : (ticks w.time).fate = .stored) :
    ∃ w', appendEntry lib ticks call w = (.ok (), w') ∧ w'.marker = w.marker := by
  cases hcall : recordCall lib w.files call (ticks w.time).ts (ticks w.time).fresh with
  | error reason =>
      obtain ⟨entries, hgood, hkeys⟩ := hlive
      obtain ⟨-, -, hvalid, hcount, -⟩ := hgood.verified
      rw [recordCall, if_neg hreason] at hcall
      have hlong := append_error hcall hvalid
      have hlength : entries.length = w.appended.length := by
        simpa using congrArg List.length hkeys
      rw [hcount, hlength] at hlong
      omega
  | ok written =>
      refine ⟨World.append { w with time := w.time + 1 } call written .stored, ?_, rfl⟩
      unfold appendEntry
      simp [hreason, hfate, hcall]

def sampleTicks : Nat → Tick := fun _ =>
  { ts := sampleTs, fresh := "", fate := .stored, osError := "" }

def anchoredClaim (claimId : String) : MustNotHappenClaim where
  claimId
  text := "no write"
  authorityClass := .humanApproved
  state := .active
  machineCheckable := true
  bindingChannel := .blockingHook
  anchors := ["a.py"]
  falsifiers := [.pytest claimId]

/-- Two claims anchor the path and both fail; a token is there for the first. -/
def hiddenInput : HookInput where
  contract := { claims := [anchoredClaim "C1", anchoredClaim "C2"] }
  relPath := "a.py"
  runFalsifier := fun _ _ => { outcome := .fail }
  token := fun claimId _ => if claimId = "C1" then some "C1-1.token" else none

theorem enforceableClaims_hidden :
    enforceableClaims hiddenInput = [anchoredClaim "C1", anchoredClaim "C2"] := by
  decide +kernel

theorem live_empty : Live lib World.empty := ⟨[], good_empty, rfl⟩

/-- The override recorded when a token is used. -/
def tokenCall (input : HookInput) (claim : MustNotHappenClaim) (token reason : String) :
    RecordCall :=
  .override claim.claimId input.relPath "FR07" input.sessionId
    ("break-glass token " ++ token ++ ": " ++ reason) "break_glass"

theorem clearViolation_nothing {w : World} {key : Key} {sessionId reason : String}
    (hopen : openViolationKeys lib w.files.ledger = .ok []) (hmarker : w.marker = .missing)
    (hfate : (ticks w.time).fate = .stored) :
    ∃ w', clearViolation lib ticks key sessionId reason w = (.ok false, w') := by
  have hmutate : ∃ w', mutate ticks (fun _ entries => dropKey key entries) w =
      (.ok true, w') := by
    unfold mutate
    simp [hmarker, hfate]
  obtain ⟨w', hmutate⟩ := hmutate
  refine ⟨w', ?_⟩
  unfold clearViolation
  rw [Eff.bind_of_ok (rfl : Eff.read w = (.ok w, w))]
  simp only [hopen]
  rw [Eff.bind_of_ok hmutate]
  simp only [hmarker, Marker.load]
  rfl

theorem breakGlass_token {input : HookInput} {claim : MustNotHappenClaim} {token reason : String}
    {w w₁ w₂ : World} {b : Bool} (htoken : input.token claim.claimId input.relPath = some token)
    (happend : appendEntry lib ticks (tokenCall input claim token reason) w = (.ok (), w₁))
    (hclear : clearViolation lib ticks (claim.claimId, input.relPath) input.sessionId
      ("break-glass token " ++ token) w₁ = (.ok b, w₂)) :
    breakGlass lib ticks input claim reason w = (.ok (some { code := allow }), w₂) := by
  unfold breakGlass
  simp only [htoken]
  have hrecord : Eff.handle Raised.isCaught
      (do appendEntry lib ticks (tokenCall input claim token reason)
          pure none)
      (fun e => pure (some e)) w = (.ok none, w₁) :=
    Eff.handle_of_ok (Eff.bind_of_ok happend)
  rw [← tokenCall, Eff.bind_of_ok hrecord]
  exact Eff.bind_of_ok hclear

theorem checkClaims_token {input : HookInput} {claim : MustNotHappenClaim}
    {claims : List MustNotHappenClaim} {ref : FalsifierRef} {refs : List FalsifierRef}
    {w w' : World} {decision : HookDecision} (hrefs : claim.falsifiers = ref :: refs)
    (hfails : (input.runFalsifier claim ref).passed = false)
    (hglass : breakGlass lib ticks input claim ((input.runFalsifier claim ref).outcome.value ++
      ": " ++ (input.runFalsifier claim ref).detail)
      { w with checked := w.checked ++ [(claim, ref)] } = (.ok (some decision), w')) :
    checkClaims lib ticks input (claim :: claims) w = (.ok decision, w') := by
  have hviolation : ∀ evaluable, violation lib ticks input claim
      ((input.runFalsifier claim ref).outcome.value ++ ": " ++
        (input.runFalsifier claim ref).detail) evaluable
      { w with checked := w.checked ++ [(claim, ref)] } = (.ok decision, w') := by
    intro evaluable
    exact Eff.bind_of_ok hglass
  have hcheck : checkFalsifiers lib ticks input claim claim.falsifiers w =
      (.ok (some decision), w') := by
    rw [hrefs]
    unfold checkFalsifiers
    refine (Eff.bind_of_ok rfl).trans ?_
    simp only [hfails, Bool.false_eq_true, if_false]
    exact Eff.bind_of_ok (hviolation _)
  unfold checkClaims
  exact Eff.bind_of_ok hcheck

theorem postEditCheck_cons {input : HookInput} {claim : MustNotHappenClaim}
    {claims : List MustNotHappenClaim} (hclaims : enforceableClaims input = claim :: claims)
    (hescaped : input.escaped = false) (hreadable : input.unreadable = none) :
    postEditCheck lib ticks input = checkClaims lib ticks input (claim :: claims) := by
  unfold postEditCheck
  simp [hclaims, hescaped, hreadable]

/-- The world once the first falsifier has run. -/
def hiddenNoted : World :=
  { World.empty with
    checked := World.empty.checked ++ [(anchoredClaim "C1", .pytest "C1")] }

theorem hiddenInput_allowed : ∃ w,
    postEditCheck decimalStdlib sampleTicks hiddenInput World.empty =
      (.ok { code := allow }, w) := by
  have hlive : Live decimalStdlib hiddenNoted := live_empty
  obtain ⟨w₁, happend, hmarker⟩ := @appendEntry_stored decimalStdlib sampleTicks hiddenNoted
    (tokenCall hiddenInput (anchoredClaim "C1") "C1-1.token" "fail: ")
    hlive (by decide +kernel) (by decide +kernel) rfl
  obtain ⟨htaken, -, hkept⟩ := appendEntry_ok happend
  have hopen : openViolationKeys decimalStdlib w₁.files.ledger = .ok [] := by
    rw [(hkept hlive).openKeys, htaken]
    rfl
  obtain ⟨w₂, hclear⟩ := @clearViolation_nothing decimalStdlib sampleTicks w₁ ("C1", "a.py") ""
    ("break-glass token " ++ "C1-1.token") hopen hmarker rfl
  have hglass := @breakGlass_token decimalStdlib sampleTicks hiddenInput (anchoredClaim "C1")
    "C1-1.token" "fail: " hiddenNoted w₁ w₂ false rfl happend hclear
  refine ⟨w₂, ?_⟩
  rw [postEditCheck_cons enforceableClaims_hidden rfl rfl]
  exact @checkClaims_token decimalStdlib sampleTicks hiddenInput (anchoredClaim "C1")
    [anchoredClaim "C2"] (.pytest "C1") [] World.empty w₂ { code := allow } rfl rfl hglass

/-- The second claim failed too, and nothing was run or recorded for it. -/
theorem claim_hidden : ¬ ∀ (lib : Stdlib) (ticks : Nat → Tick) (input : HookInput)
    (decision : HookDecision) (w : World),
    postEditCheck lib ticks input World.empty = (.ok decision, w) → decision.code = allow →
      input.escaped = false → input.unreadable = none →
      ∀ claim ∈ enforceableClaims input, Enforced input w.checked w.appended claim := by
  intro hall
  obtain ⟨w, hallowed⟩ := hiddenInput_allowed
  have henforced := hall _ _ _ _ _ hallowed rfl rfl rfl
  obtain ⟨ran, new, hran, hnew, hiff⟩ := enforced_iff hallowed rfl rfl rfl
  have hnothing : NothingSkipped hiddenInput := by
    refine hiff.mp ?_
    obtain rfl : w.checked = ran := hran
    obtain rfl : w.appended = new := hnew
    exact henforced
  unfold NothingSkipped at hnothing
  have hdrop : (enforceableClaims hiddenInput).dropWhile hiddenInput.passes =
      [anchoredClaim "C1", anchoredClaim "C2"] := by
    rw [enforceableClaims_hidden]
    rfl
  have htake : (enforceableClaims hiddenInput).takeWhile hiddenInput.passes = [] := by
    rw [enforceableClaims_hidden]
    rfl
  simp only [hdrop, htake] at hnothing
  have hsecond := hnothing (anchoredClaim "C2") (by simp)
  simp [anchoredClaim] at hsecond

/-- That edit is let through, and the claims of its path are not all enforced. -/
theorem violations_enforced_sample : ∃ w,
    postEditCheck decimalStdlib sampleTicks hiddenInput World.empty = (.ok { code := allow }, w) ∧
      ((∀ claim ∈ enforceableClaims hiddenInput,
        Enforced hiddenInput w.checked w.appended claim) ↔ NothingSkipped hiddenInput) := by
  obtain ⟨w, hallowed⟩ := hiddenInput_allowed
  have hrun : Run (OperationStep decimalStdlib sampleTicks) World.empty [] World.empty := Run.nil
  obtain ⟨hcheck, -, -⟩ := violations_enforced hrun
  obtain ⟨ran, new, hran, hnew, hiff⟩ := hcheck hiddenInput World.empty _ w hallowed rfl rfl rfl
  obtain rfl : w.checked = ran := hran
  obtain rfl : w.appended = new := hnew
  exact ⟨w, hallowed, hiff⟩

end TrwMcp.Intent
