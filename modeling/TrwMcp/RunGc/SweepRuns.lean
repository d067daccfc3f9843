import Mathlib
import TrwMcp.RunGc.Sweep

/-!
# What the prefilters change

Every run is counted under one verdict. The verdict of the sweep is the parser's verdict, but where
the first bytes name an active run and do not settle its protection: then a pin or a recent
activity ends the body before the file is read, and a protected run is not counted as one.
-/

namespace TrwMcp.RunGc

open Lib Regex

/-! ## Verdicts -/

namespace Report

/-- A run's mark on the report. -/
def counted (t : Report) (name : String) : Option Category → Report
  | none => t.scan
  | some .abandoned => t.scan.abandon name
  | some .pinned => t.scan.pinned
  | some .protected_ => t.scan.protected_
  | some .grace => t.scan.grace name
  | some .terminal => t.scan.terminal
  | some .malformed => t.scan.malformed

@[simp] theorem takeBack_abandon (t : Report) (name : String) : (t.abandon name).takeBack = t := by
  simp [takeBack, abandon]

theorem counter_counted (t : Report) (name : String) (v : Option Category) (c : Category) :
    (t.counted name v).counter c = t.counter c + if v = some c then 1 else 0 := by
  cases v with
  | none => cases c <;> rfl
  | some d => cases d <;> cases c <;> rfl

theorem counter_sorted (t : Report) (c : Category) : t.sorted.counter c = t.counter c := by
  cases c <;> rfl

end Report

section

variable (py : Py) {τ : Type} [LinearOrder τ] [Zero τ] (args : SweepArgs τ)

/-- What becomes of an active run from the pins on. -/
def activeVerdict (run : RunDir τ) : Option Category :=
  if args.pinned.contains run.resolved then some .pinned
  else if args.stalenessCutoff ≤ computeLastActivity run then none
  else if args.graceCutoff ≤ computeLastActivity run then some .grace
  else
    match loadRunYaml py run with
    | none => some .malformed
    | some data =>
        if currentStatus py data ≠ active then some .terminal
        else if isProtected data then some .protected_
        else if args.dryRun then some .abandoned
        else
          match abandonUnderLock py run.locked with
          | none => some .malformed
          | some .abandoned => some .abandoned
          | some .protected_ => some .protected_
          | some .terminal => some .terminal

/-- What becomes of a run for given answers of the two prefilters. -/
def verdict (status : Option (List Char)) (protected_ : Option Bool) (run : RunDir τ) :
    Option Category :=
  match status with
  | some status =>
      if status = active then
        if protected_ = some true then some .protected_ else activeVerdict py args run
      else some .terminal
  | none =>
      match loadRunYaml py run with
      | none => some .malformed
      | some data =>
          if parsedStatus py data ≠ active then some .terminal
          else if isProtected data then some .protected_
          else activeVerdict py args run

variable {py args}

theorem not_isTerminalStatus_active : isTerminalStatus active = false := by decide

theorem sweepActive_eq (t : Report) (run : RunDir τ) :
    sweepActive py args t.scan run = t.counted run.name (activeVerdict py args run) := by
  unfold sweepActive activeVerdict
  dsimp only
  by_cases hpin : args.pinned.contains run.resolved = true
  · rw [if_pos hpin, if_pos hpin]
    rfl
  · rw [if_neg hpin, if_neg hpin]
    by_cases hstale : args.stalenessCutoff ≤ computeLastActivity run
    · rw [if_pos hstale, if_pos hstale]
      rfl
    · rw [if_neg hstale, if_neg hstale]
      by_cases hgrace : args.graceCutoff ≤ computeLastActivity run
      · rw [if_pos hgrace, if_pos hgrace]
        rfl
      · simp only [if_neg hgrace]
        cases loadRunYaml py run with
        | none => rfl
        | some data =>
            dsimp only
            split
            · rfl
            · split
              · rfl
              · split
                · rfl
                · cases abandonUnderLock py run.locked with
                  | none => simp [Report.counted]
                  | some landed => cases landed <;> simp [Report.counted]

theorem sweepOne_eq (status : Option (List Char)) (protected_ : Option Bool) (t : Report)
    (run : RunDir τ) :
    sweepOne py args status protected_ t run =
      t.counted run.name (verdict py args status protected_ run) := by
  cases status with
  | some status =>
      rw [sweepOne, verdict]
      by_cases hactive : status = active
      · subst hactive
        simp only [not_isTerminalStatus_active, Bool.false_eq_true, if_false, if_true]
        split
        · rfl
        · exact sweepActive_eq t run
      · simp only [hactive, if_false, ite_self]
        rfl
  | none =>
      rw [sweepOne, verdict]
      cases loadRunYaml py run with
      | none => rfl
      | some data =>
          dsimp only
          by_cases hactive : parsedStatus py data = active
          · simp only [hactive, not_isTerminalStatus_active, Bool.false_eq_true, if_false, ne_eq,
              not_true_eq_false]
            split
            · rfl
            · exact sweepActive_eq t run
          · simp only [hactive, ne_eq, not_false_eq_true, if_true, ite_self]
            rfl

/-! ## Counters -/

theorem counter_sweepWith (statusOf : RunDir τ → Option (List Char))
    (protectedOf : RunDir τ → Option Bool) (runs : List (RunDir τ)) (c : Category) :
    (sweepWith py args statusOf protectedOf runs).counter c =
      runs.countP fun run => verdict py args (statusOf run) (protectedOf run) run = some c := by
  have hfold : ∀ t : Report,
      (runs.foldl (fun t run => sweepOne py args (statusOf run) (protectedOf run) t run)
        t).counter c = t.counter c +
          runs.countP fun run => verdict py args (statusOf run) (protectedOf run) run = some c := by
    induction runs with
    | nil => intro t; rfl
    | cons run runs ih =>
        intro t
        rw [List.foldl_cons, ih, sweepOne_eq, Report.counter_counted, List.countP_cons]
        simp only [decide_eq_true_eq]
        omega
  have hzero : ({} : Report).counter c = 0 := by cases c <;> rfl
  rw [sweepWith, Report.counter_sorted, hfold, hzero, Nat.zero_add]

theorem sweepWith_congr {statusOf statusOf' : RunDir τ → Option (List Char)}
    {protectedOf protectedOf' : RunDir τ → Option Bool} {runs : List (RunDir τ)}
    (h : ∀ run ∈ runs, verdict py args (statusOf run) (protectedOf run) run =
      verdict py args (statusOf' run) (protectedOf' run) run) :
    sweepWith py args statusOf protectedOf runs = sweepWith py args statusOf' protectedOf' runs := by
  unfold sweepWith
  congr 1
  refine List.foldl_ext _ _ _ fun t run hrun => ?_
  rw [sweepOne_eq, sweepOne_eq, h run hrun]

omit [LinearOrder τ] [Zero τ] in
theorem of_countP_eq {p q : RunDir τ → Bool} {runs : List (RunDir τ)}
    (himp : ∀ run ∈ runs, p run → q run) (h : runs.countP p = runs.countP q) :
    ∀ run ∈ runs, q run → p run := by
  induction runs with
  | nil => nofun
  | cons first runs ih =>
      have hrest := List.countP_mono_left fun run hrun => himp run (List.mem_cons_of_mem _ hrun)
      have hfirst := himp first (List.mem_cons_self ..)
      rw [List.countP_cons, List.countP_cons] at h
      have hsame : runs.countP p = runs.countP q ∧ (q first → p first) := by
        cases hp : p first <;> cases hq : q first <;> (simp_all; try omega)
      intro run hrun
      rcases List.mem_cons.mp hrun with rfl | hmem
      · exact hsame.2
      · exact ih (fun run hrun => himp run (List.mem_cons_of_mem _ hrun)) hsame.1 run hmem

/-! ## The two sweeps -/

/-- Where a prefilter answers, the parser gives the same value. -/
structure Agrees (py : Py) (run : RunDir τ) : Prop where
  status : ∀ v, prefilterStatus py run = some v →
    ∃ data, loadRunYaml py run = some data ∧ parsedStatus py data = v
  protected_ : ∀ b, prefilterProtected py run = some b →
    ∃ data, loadRunYaml py run = some data ∧ Dict.lookup data "protected" = some (.bool b)

/-- A protected run whose protection the first bytes do not settle, though they name it active, and
which a pin or its last activity keeps. -/
def Overlooked (py : Py) (args : SweepArgs τ) (run : RunDir τ) : Prop :=
  prefilterStatus py run = some active ∧ prefilterProtected py run = none ∧
    (∃ data, loadRunYaml py run = some data ∧ isProtected data = true) ∧
    (args.pinned.contains run.resolved = true ∨ args.stalenessCutoff ≤ computeLastActivity run ∨
      args.graceCutoff ≤ computeLastActivity run)

theorem currentStatus_of_parsed {data : Data} (h : parsedStatus py data = active) :
    currentStatus py data = active := by
  unfold parsedStatus at h
  unfold currentStatus
  split at h
  · exact absurd h (by decide)
  · exact absurd h (by decide)
  · next value hvalue => rwa [hvalue]

theorem verdict_overlooked {run : RunDir τ} (hagree : Agrees py run)
    (h : Overlooked py args run) :
    verdict py args none none run = some .protected_ ∧
      verdict py args (prefilterStatus py run) (prefilterProtected py run) run ≠
        some .protected_ := by
  obtain ⟨hstatus, habstains, ⟨data, hload, hprotected⟩, hkept⟩ := h
  obtain ⟨data', hload', hparsed⟩ := hagree.status _ hstatus
  obtain rfl := Option.some.inj (hload.symm.trans hload')
  constructor
  · simp only [verdict, hload, hparsed, hprotected, ne_eq, not_true_eq_false, if_false, if_true]
  · simp only [hstatus, habstains, verdict, if_true, reduceCtorEq, if_false, activeVerdict]
    split
    · simp
    · next hpin =>
      split
      · simp
      · next hstale =>
        rw [if_pos ((hkept.resolve_left hpin).resolve_left hstale)]
        simp

theorem verdict_eq {run : RunDir τ} (hagree : Agrees py run) (h : ¬ Overlooked py args run) :
    verdict py args (prefilterStatus py run) (prefilterProtected py run) run =
      verdict py args none none run := by
  cases hstatus : prefilterStatus py run with
  | none => rfl
  | some status =>
      obtain ⟨data, hload, hparsed⟩ := hagree.status _ hstatus
      by_cases hactive : status = active
      · have hcurrent := currentStatus_of_parsed (hparsed.trans hactive)
        simp only [verdict, hload, hparsed, hactive, if_true, ne_eq, not_true_eq_false, if_false]
        cases hprotection : prefilterProtected py run with
        | some b =>
            obtain ⟨data', hload', hb⟩ := hagree.protected_ _ hprotection
            obtain rfl := Option.some.inj (hload.symm.trans hload')
            cases b <;> simp [isProtected, hb]
        | none =>
            by_cases hprotected : isProtected data = true
            · -- not overlooked, so the body reaches the abandon path and reads the file
              have hkept : ¬ (args.pinned.contains run.resolved = true ∨
                  args.stalenessCutoff ≤ computeLastActivity run ∨
                    args.graceCutoff ≤ computeLastActivity run) := fun hkept =>
                h ⟨hstatus.trans (congrArg some hactive), hprotection, ⟨data, hload, hprotected⟩,
                  hkept⟩
              simp only [not_or] at hkept
              simp only [reduceCtorEq, if_false, hprotected, if_true, activeVerdict, if_neg hkept.1,
                if_neg hkept.2.1, if_neg hkept.2.2, hload, hcurrent, ne_eq, not_true_eq_false]
            · simp [hprotected]
      · simp [verdict, hload, hparsed, hactive]

/-- The report is the parser's exactly where no run is overlooked, and every run is counted under
at most one category. -/
theorem report_iff {runs : List (RunDir τ)} (hagree : ∀ run ∈ runs, Agrees py run) :
    (sweepStaleRuns py args runs = sweepParsed py args runs ∧
      ∃ category : RunDir τ → Option Category, ∀ c,
        (sweepStaleRuns py args runs).counter c =
          runs.countP fun run => category run = some c) ↔
      ∀ run ∈ runs, ¬ Overlooked py args run := by
  constructor
  · rintro ⟨heq, -⟩ run hrun hover
    have hcount := congrArg (·.counter .protected_) heq
    simp only [sweepStaleRuns, sweepParsed, counter_sweepWith] at hcount
    have hfew : ∀ run ∈ runs,
        decide (verdict py args (prefilterStatus py run) (prefilterProtected py run) run =
          some .protected_) = true →
        decide (verdict py args none none run = some .protected_) = true := by
      intro run hrun hp
      by_cases hone : Overlooked py args run
      · exact decide_eq_true (verdict_overlooked (hagree run hrun) hone).1
      · rwa [verdict_eq (hagree run hrun) hone] at hp
    obtain ⟨hparsed, hswept⟩ := verdict_overlooked (hagree run hrun) hover
    exact hswept (of_decide_eq_true
      (of_countP_eq hfew hcount run hrun (decide_eq_true hparsed)))
  · intro h
    exact ⟨sweepWith_congr fun run hrun => verdict_eq (hagree run hrun) (h run hrun),
      _, fun c => counter_sweepWith _ _ runs c⟩

end

/-! ## A comment behind the word -/

def sampleFile : List UInt8 := 
  "status: active\nprotected: true # keep\n".toList.map fun c => c.toNat.toUInt8

def samplePy : Py where
  decode bytes := bytes.map fun b => Char.ofNat b.toNat
  isWord c := c.isAlphanum || c = '_'
  lower := List.map Char.toLower
  load bytes :=
    if bytes = sampleFile then
      some [("status", .str "active".toList), ("protected", .bool true)]
    else none

def sampleRun : RunDir Nat where
  name := "r1"
  resolved := "/runs/t/r1"
  runYaml := some sampleFile
  locked := .found [("status", .str "active".toList), ("protected", .bool true)] true
  eventsTime := some 100
  runYamlTime := some 100
  checkpointsTime := none
  heartbeatTime := none

def sampleArgs (pinned : List String) : SweepArgs Nat := ⟨4000, 3000, pinned, false⟩

theorem sampleRun_agrees : Agrees samplePy sampleRun := by
  have hstatus : prefilterStatus samplePy sampleRun = some active := by decide
  have hprotected : prefilterProtected samplePy sampleRun = none := by decide
  constructor
  · intro v hv
    exact ⟨[("status", .str "active".toList), ("protected", .bool true)], by decide,
      (by decide : _ = active).trans (Option.some.inj (hstatus.symm.trans hv))⟩
  · intro b hb
    cases hprotected.symm.trans hb

/-- An unpinned old run is reported as the parser has it. -/
theorem report_iff_sample :
    sweepStaleRuns samplePy (sampleArgs []) [sampleRun] =
      sweepParsed samplePy (sampleArgs []) [sampleRun] := by
  refine ((report_iff (List.forall_mem_singleton.mpr sampleRun_agrees)).mpr
    (List.forall_mem_singleton.mpr ?_)).1
  rintro ⟨-, -, -, h⟩
  revert h
  decide

/-- A pinned run whose protection stands before a comment is counted as pinned, where the parser
has it protected. -/
theorem pinned_not_protected : ∃ (py : Py) (args : SweepArgs Nat) (runs : List (RunDir Nat)),
    (∀ run ∈ runs, Agrees py run) ∧ sweepStaleRuns py args runs ≠ sweepParsed py args runs := by
  refine ⟨samplePy, sampleArgs ["/runs/t/r1"], [sampleRun],
    List.forall_mem_singleton.mpr sampleRun_agrees, fun h => ?_⟩
  have hcount := congrArg (·.counter .pinned) h
  simp only [sweepStaleRuns, sweepParsed, counter_sweepWith] at hcount
  revert hcount
  decide

/-! ## What is abandoned -/

theorem Report.abandonedRunIds_counted (t : Report) (name : String) (v : Option Category) :
    (t.counted name v).abandonedRunIds =
      t.abandonedRunIds ++ if v = some .abandoned then [name] else [] := by
  cases v with
  | none => exact (List.append_nil _).symm
  | some c => cases c <;> first | rfl | exact (List.append_nil _).symm

section

variable {py : Py} {τ : Type} [LinearOrder τ] [Zero τ] {args : SweepArgs τ}

/-- Nothing keeps the run: no pin, no recent activity, and its file says active and unprotected,
under the lock as well if it is to be written. -/
structure Forsaken (py : Py) (args : SweepArgs τ) (run : RunDir τ) : Prop where
  unpinned : run.resolved ∉ args.pinned
  stale : computeLastActivity run < args.stalenessCutoff
  late : computeLastActivity run < args.graceCutoff
  read : ∃ data, loadRunYaml py run = some data ∧ currentStatus py data = active ∧
    isProtected data = false
  locked : args.dryRun = false → ∃ data, run.locked = .found data true ∧
    currentStatus py data = active ∧ isProtected data = false

theorem abandonUnderLock_abandoned {locked : Locked}
    (h : abandonUnderLock py locked = some .abandoned) : ∃ data, locked = .found data true ∧
      currentStatus py data = active ∧ isProtected data = false := by
  cases locked with
  | raises => cases h
  | missing => cases h
  | found data writes =>
      simp only [abandonUnderLock] at h
      split at h
      · cases h
      · next hactive =>
        split at h
        · cases h
        · next hprotected =>
          split at h
          · next hwrites =>
            exact ⟨data, by rw [hwrites], not_not.mp hactive, by simpa using hprotected⟩
          · cases h

theorem activeVerdict_abandoned {run : RunDir τ}
    (h : activeVerdict py args run = some .abandoned) : Forsaken py args run := by
  unfold activeVerdict at h
  split at h
  · cases h
  · next hpin =>
    split at h
    · cases h
    · next hstale =>
      split at h
      · cases h
      · next hgrace =>
        split at h
        · cases h
        · next data hload =>
          split at h
          · cases h
          · next hactive =>
            split at h
            · cases h
            · next hprotected =>
              refine ⟨by simpa using hpin, not_le.mp hstale, not_le.mp hgrace,
                ⟨data, hload, not_not.mp hactive, by simpa using hprotected⟩, fun hdry => ?_⟩
              rw [if_neg (by simp [hdry])] at h
              refine abandonUnderLock_abandoned ?_
              split at h <;> first | assumption | cases h

theorem verdict_abandoned {status : Option (List Char)} {protected_ : Option Bool}
    {run : RunDir τ} (h : verdict py args status protected_ run = some .abandoned) :
    Forsaken py args run := by
  unfold verdict at h
  split at h
  · split at h
    · split at h
      · cases h
      · exact activeVerdict_abandoned h
    · cases h
  · split at h
    · cases h
    · split at h
      · cases h
      · split at h
        · cases h
        · exact activeVerdict_abandoned h

/-- Whatever the two prefilters answer, a sweep abandons the runs of that verdict, each once, and
nothing keeps any of them. -/
theorem abandoned_forsaken (statusOf : RunDir τ → Option (List Char))
    (protectedOf : RunDir τ → Option Bool) (runs : List (RunDir τ)) :
    (sweepWith py args statusOf protectedOf runs).abandonedRunIds =
        ((runs.filter fun run => verdict py args (statusOf run) (protectedOf run) run =
          some .abandoned).map (·.name)).mergeSort (· ≤ ·) ∧
      ∀ run ∈ runs, verdict py args (statusOf run) (protectedOf run) run = some .abandoned →
        Forsaken py args run := by
  refine ⟨?_, fun run _ h => verdict_abandoned h⟩
  have hfold : ∀ t : Report,
      (runs.foldl (fun t run => sweepOne py args (statusOf run) (protectedOf run) t run)
        t).abandonedRunIds = t.abandonedRunIds ++
          (runs.filter fun run => verdict py args (statusOf run) (protectedOf run) run =
            some .abandoned).map (·.name) := by
    induction runs with
    | nil => exact fun t => (List.append_nil _).symm
    | cons run runs ih =>
        intro t
        rw [List.foldl_cons, ih, sweepOne_eq, Report.abandonedRunIds_counted, List.filter_cons,
          List.append_assoc]
        congr 1
        by_cases h : verdict py args (statusOf run) (protectedOf run) run = some .abandoned <;>
          simp [h]
  rw [sweepWith, Report.sorted, hfold]
  rfl

end

end TrwMcp.RunGc
