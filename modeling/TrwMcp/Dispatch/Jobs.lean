import TrwMcp.Lib.Run
import TrwMcp.Lib.Text

/-!
# Background dispatch jobs

One detached job: the child that writes the result file and exits, and the pollers and sweeps that
read the record, the result file and the process table one after the other and then write the
record. A poller works on the copy of the record it loaded, so several may decide at once.

A verdict that rests on the absence of a result is true only if nothing was written since the
poller looked; then all verdicts agree, and the first one persisted is the last.
-/

namespace TrwMcp.Dispatch

open Lib

inductive JobStatus where
  | running
  | succeeded
  | failed
  | timedOut
  | cancelled
deriving DecidableEq

/-- `_TERMINAL_STATUSES` -/
def JobStatus.terminal : JobStatus → Bool
  | .running => false
  | _ => true

/-- The fields of the result that its verdict reads. -/
structure DispatchResult where
  timedOut : Bool
  exitCode : Int
  text : String
  silenceReason : Option String
  contamination : String
deriving DecidableEq

def DispatchResult.ok (r : DispatchResult) : Bool :=
  !r.timedOut && r.exitCode == 0 && Text.stripChars r.text.toList != [] &&
    (r.silenceReason.isNone && r.contamination != "contaminated")

/-- The fields of the record that do not change; `createdAt` is absent when it does not parse. -/
structure DispatchJob where
  createdAt : Option ℚ
  timeoutS : Nat
  prelaunchS : ℚ
  pid : Option Nat

/-- `_STUCK_TTL_FACTOR` -/
def stuckTtlFactor : ℚ := 3 / 2

/-- `_DEFAULT_JOB_MAX_AGE_DAYS`, in seconds -/
def jobMaxAge : ℚ := 7 * 86400

def stuckPastTtl (job : DispatchJob) (now : ℚ) : Bool :=
  match job.createdAt with
  | none => false
  | some created => created + (job.prelaunchS + job.timeoutS * stuckTtlFactor) < now

/-- Whether a sweep begun at `now` removes the files of the terminal job. -/
def pastRetention (job : DispatchJob) (now : ℚ) : Bool :=
  match job.createdAt with
  | none => false
  | some created => created ≤ now - jobMaxAge

/-- `_reconcile_job` on a result that exists. -/
def statusOf (r : DispatchResult) : JobStatus :=
  if r.ok then .succeeded else if r.timedOut then .timedOut else .failed

/-- Who reconciles: `get_status`, or `_sweep_old_jobs`, which goes on to remove old files. -/
inductive Caller where
  | poll
  | sweep
deriving DecidableEq

/-- Where a poller stands. `now` was read when the record had been loaded (by a sweep, when it
began); the copy of the record says `running` from `looking` to `deciding`. -/
inductive Phase where
  | idle
  | begun (now : ℚ)
  | looking (caller : Caller) (now : ℚ)
  | probing (caller : Caller) (now : ℚ)
  | aging (caller : Caller) (now : ℚ)
  | killing (caller : Caller) (now : ℚ)
  | deciding (caller : Caller) (now : ℚ) (verdict : JobStatus)
  | removingRecord
  | removingResult
deriving DecidableEq

/-- The job's files and its child. `landed` is what the child has ever written, and when: the
result file may be swept away again. -/
structure World (P : Type) where
  now : ℚ
  record : Option JobStatus := some .running
  result : Option DispatchResult := none
  childRuns : Bool := true
  landed : Option (DispatchResult × ℚ) := none
  pollers : P → Phase := fun _ => .idle

/-- The steps; a flag says what the file system, or the process table, answers. -/
inductive Move (P : Type) where
  | tick (dt : ℚ)
  | write (r : DispatchResult)
  | exit
  | beginSweep (p : P)
  | load (p : P)
  | look (p : P) (readable : Bool)
  | probe (p : P) (alive : Bool)
  | age (p : P)
  | kill (p : P) (killed : Bool)
  | persist (p : P) (ok : Bool)
  | remove (p : P) (ok : Bool)

section

variable {P : Type} [DecidableEq P]

def World.goto (w : World P) (p : P) (phase : Phase) : World P :=
  { w with pollers := Function.update w.pollers p phase }

/-- What follows once a poller knows the job to be terminal. -/
def afterTerminal (job : DispatchJob) (caller : Caller) (now : ℚ) : Phase :=
  if caller = .sweep ∧ pastRetention job now then .removingRecord else .idle

def step (job : DispatchJob) (w : World P) : Move P → Option (World P)
  | .tick dt => if 0 ≤ dt then some { w with now := w.now + dt } else none
  | .write r =>
      if w.childRuns ∧ w.landed = none then
        some { w with result := some r, landed := some (r, w.now) }
      else none
  | .exit => some { w with childRuns := false }
  | .beginSweep p => if w.pollers p = .idle then some (w.goto p (.begun w.now)) else none
  | .load p =>
      let next (caller : Caller) (now : ℚ) : World P :=
        match w.record with
        | none => w.goto p .idle
        | some status =>
            if status.terminal then w.goto p (afterTerminal job caller now)
            else w.goto p (.looking caller now)
      match w.pollers p with
      | .idle => some (next .poll w.now)
      | .begun now => some (next .sweep now)
      | _ => none
  | .look p readable =>
      match w.pollers p with
      | .looking caller now =>
          match w.result, readable with
          | none, _ => some (w.goto p (.probing caller now))
          | some r, true => some (w.goto p (.deciding caller now (statusOf r)))
          | some _, false => some (w.goto p .idle)
      | _ => none
  | .probe p alive =>
      match w.pollers p with
      | .probing caller now =>
          -- the probe misses no process that runs, but a reused pid may stand for one that does not
          if alive then some (w.goto p (.aging caller now))
          else if w.childRuns ∨ job.pid = none then none
          else some (w.goto p (.deciding caller now .failed))
      | _ => none
  | .age p =>
      match w.pollers p with
      | .aging caller now =>
          if stuckPastTtl job now then some (w.goto p (.killing caller now))
          else some (w.goto p .idle)
      | _ => none
  | .kill p killed =>
      match w.pollers p with
      | .killing caller now =>
          -- the signal is refused when the process identity does not match
          some { (w.goto p (.deciding caller now .failed)) with
            childRuns := w.childRuns && !killed }
      | _ => none
  | .persist p ok =>
      match w.pollers p with
      | .deciding caller now verdict =>
          if ok then some { (w.goto p (afterTerminal job caller now)) with record := some verdict }
          else some (w.goto p .idle)
      | _ => none
  | .remove p ok =>
      match w.pollers p with
      | .removingRecord =>
          some { (w.goto p .removingResult) with record := if ok then none else w.record }
      | .removingResult =>
          some { (w.goto p .idle) with result := if ok then none else w.result }
      | _ => none

/-- No verdict is taken from a missing result once the child has written one, and the child writes
none once a verdict has been reached. -/
def Timely (w : World P) : Move P → Prop
  | .probe _ alive => alive = false → w.landed = none
  | .kill _ _ => w.landed = none
  | .write _ => (∀ p caller now verdict, w.pollers p ≠ .deciding caller now verdict) ∧
      w.record = some .running
  | _ => True

def TimelyStep (job : DispatchJob) (w : World P) (m : Move P) (w' : World P) : Prop :=
  step job w m = some w' ∧ Timely w m

/-- What every poller must come to: the verdict on the result the child has written, or `failed`
when it has written none. -/
def finalStatus (landed : Option (DispatchResult × ℚ)) : JobStatus :=
  match landed with
  | some (r, _) => statusOf r
  | none => .failed

theorem statusOf_terminal (r : DispatchResult) : (statusOf r).terminal = true := by
  unfold statusOf
  split
  · rfl
  · split <;> rfl

@[simp] theorem finalStatus_terminal (landed : Option (DispatchResult × ℚ)) :
    (finalStatus landed).terminal = true := by
  unfold finalStatus
  split
  · exact statusOf_terminal _
  · rfl

theorem statusOf_eq_succeeded {r : DispatchResult} : statusOf r = .succeeded ↔ r.ok = true := by
  unfold statusOf
  split
  · next h => simp [h]
  · next h => split <;> simp [h]

/-! ## The invariant -/

structure Inv (w : World P) : Prop where
  deciding : ∀ p caller now verdict, w.pollers p = .deciding caller now verdict →
    verdict = finalStatus w.landed
  record : ∀ status, w.record = some status → status.terminal = true →
    status = finalStatus w.landed
  result : ∀ r, w.result = some r → ∃ t, w.landed = some (r, t)

/-- The job when its record is first persisted: `start_background` has spawned the child, which may
be done already. -/
structure Spawned (w : World P) : Prop where
  record : w.record = some .running
  idle : ∀ p, w.pollers p = .idle
  result : w.result = w.landed.map Prod.fst

omit [DecidableEq P] in
theorem Inv.init {w : World P} (h : Spawned w) : Inv w where
  deciding p caller now verdict hp := by
    rw [h.idle p] at hp
    cases hp
  record status hstatus hterminal := by
    rw [h.record] at hstatus
    obtain rfl := Option.some.inj hstatus
    cases hterminal
  result r hr := by
    rw [h.result] at hr
    obtain ⟨⟨r', t⟩, ht, rfl⟩ := Option.map_eq_some_iff.mp hr
    exact ⟨t, ht⟩

theorem Inv.goto {w : World P} (h : Inv w) {p : P} {phase : Phase}
    (hphase : ∀ caller now verdict, phase = .deciding caller now verdict →
      verdict = finalStatus w.landed) : Inv (w.goto p phase) where
  deciding q caller now verdict hq := by
    change Function.update w.pollers p phase q = _ at hq
    rw [Function.update_apply] at hq
    split at hq
    · exact hphase caller now verdict hq
    · exact h.deciding q caller now verdict hq
  record := h.record
  result := h.result

theorem afterTerminal_ne_deciding {job : DispatchJob} {caller c : Caller} {now n : ℚ}
    {verdict : JobStatus} : afterTerminal job caller now ≠ .deciding c n verdict := by
  unfold afterTerminal
  split <;> simp

theorem Inv.load {w : World P} (h : Inv w) (job : DispatchJob) (p : P) (caller : Caller) (now : ℚ) :
    Inv (match w.record with
      | none => w.goto p .idle
      | some status =>
          if status.terminal then w.goto p (afterTerminal job caller now)
          else w.goto p (.looking caller now)) := by
  split
  · exact h.goto (by simp)
  · split
    · exact h.goto fun _ _ _ hp => absurd hp afterTerminal_ne_deciding
    · exact h.goto (by simp)

theorem Inv.step {job : DispatchJob} {w w' : World P} {m : Move P} (h : Inv w)
    (hs : TimelyStep job w m w') : Inv w' := by
  obtain ⟨hstep, htimely⟩ := hs
  cases m with
  | tick dt =>
      unfold Dispatch.step at hstep
      dsimp only at hstep
      split at hstep <;> cases hstep
      exact ⟨h.deciding, h.record, h.result⟩
  | write r =>
      unfold Dispatch.step at hstep
      dsimp only at hstep
      split at hstep <;> cases hstep
      -- nothing has been decided yet
      obtain ⟨hnone, hopen⟩ := htimely
      refine ⟨fun p caller now verdict hp => absurd hp (hnone p caller now verdict), ?_, ?_⟩
      · intro status hstatus hterminal
        obtain rfl := Option.some.inj (hopen.symm.trans hstatus)
        cases hterminal
      · intro r' hr'
        obtain rfl := Option.some.inj hr'
        exact ⟨_, rfl⟩
  | exit =>
      obtain rfl := Option.some.inj hstep
      exact ⟨h.deciding, h.record, h.result⟩
  | beginSweep p =>
      unfold Dispatch.step at hstep
      dsimp only at hstep
      split at hstep <;> cases hstep
      exact h.goto (by simp)
  | load p =>
      unfold Dispatch.step at hstep
      dsimp only at hstep
      split at hstep <;> cases hstep
      · exact h.load job p .poll w.now
      · exact h.load job p .sweep _
  | look p readable =>
      unfold Dispatch.step at hstep
      dsimp only at hstep
      split at hstep
      · split at hstep <;> cases hstep
        · exact h.goto (by simp)
        · next r hr =>
            refine h.goto fun _ _ _ hp => ?_
            obtain ⟨-, -, rfl⟩ := Phase.deciding.inj hp
            obtain ⟨t, ht⟩ := h.result r hr
            rw [ht]
            rfl
        · exact h.goto (by simp)
      · cases hstep
  | probe p alive =>
      unfold Dispatch.step at hstep
      dsimp only at hstep
      split at hstep
      · split at hstep
        · cases hstep
          exact h.goto (by simp)
        · next halive =>
            split at hstep <;> cases hstep
            refine h.goto fun _ _ _ hp => ?_
            obtain ⟨-, -, rfl⟩ := Phase.deciding.inj hp
            rw [htimely (by simpa using halive)]
            rfl
      · cases hstep
  | age p =>
      unfold Dispatch.step at hstep
      dsimp only at hstep
      split at hstep
      · split at hstep <;> cases hstep
        · exact h.goto (by simp)
        · exact h.goto (by simp)
      · cases hstep
  | kill p killed =>
      unfold Dispatch.step at hstep
      dsimp only at hstep
      split at hstep <;> cases hstep
      next caller now _ =>
        have hgoto : Inv (w.goto p (.deciding caller now .failed)) := by
          refine h.goto fun _ _ _ hp => ?_
          obtain ⟨-, -, rfl⟩ := Phase.deciding.inj hp
          rw [show w.landed = none from htimely]
          rfl
        exact ⟨hgoto.deciding, hgoto.record, hgoto.result⟩
  | persist p ok =>
      unfold Dispatch.step at hstep
      dsimp only at hstep
      split at hstep
      · next caller now verdict hp =>
          split at hstep <;> cases hstep
          · have hverdict := h.deciding p caller now verdict hp
            have hgoto : Inv (w.goto p (afterTerminal job caller now)) :=
              h.goto fun _ _ _ hp => absurd hp afterTerminal_ne_deciding
            refine ⟨hgoto.deciding, fun status hstatus _ => ?_, hgoto.result⟩
            obtain rfl := Option.some.inj hstatus
            exact hverdict
          · exact h.goto (by simp)
      · cases hstep
  | remove p ok =>
      unfold Dispatch.step at hstep
      dsimp only at hstep
      split at hstep <;> cases hstep
      · have hgoto : Inv (w.goto p .removingResult) := h.goto (by simp)
        refine ⟨hgoto.deciding, fun status hstatus => ?_, hgoto.result⟩
        cases ok with
        | true => cases hstatus
        | false => exact h.record status hstatus
      · have hgoto : Inv (w.goto p .idle) := h.goto (by simp)
        refine ⟨hgoto.deciding, hgoto.record, ?_⟩
        intro r hr
        cases ok with
        | true => cases hr
        | false => exact h.result r hr

/-! ## The last word -/

/-- Once a verdict is persisted the child writes no more, and a later record is a verdict too. -/
structure Final (landed : Option (DispatchResult × ℚ)) (w : World P) : Prop where
  inv : Inv w
  landed : w.landed = landed
  record : ∀ status, w.record = some status → status.terminal = true

theorem Final.step {job : DispatchJob} {landed : Option (DispatchResult × ℚ)} {w w' : World P}
    {m : Move P} (h : Final landed w) (hs : TimelyStep job w m w') : Final landed w' := by
  have hinv := h.inv.step hs
  obtain ⟨hstep, htimely⟩ := hs
  cases m with
  | write r =>
      -- the record no longer says `running`
      have := h.record _ htimely.2
      cases this
  | exit =>
      obtain rfl := Option.some.inj hstep
      exact ⟨hinv, h.landed, h.record⟩
  | load p =>
      have hkept : w'.landed = w.landed ∧ w'.record = w.record := by
        unfold Dispatch.step at hstep
        dsimp only at hstep
        split at hstep <;> cases hstep <;> (split <;> (try split) <;> exact ⟨rfl, rfl⟩)
      exact ⟨hinv, hkept.1.trans h.landed, fun status hs => h.record status (hkept.2 ▸ hs)⟩
  | persist p ok =>
      unfold Dispatch.step at hstep
      dsimp only at hstep
      split at hstep
      · next caller now verdict hp =>
          split at hstep <;> cases hstep
          · refine ⟨hinv, h.landed, fun status hstatus => ?_⟩
            obtain rfl := Option.some.inj hstatus
            rw [h.inv.deciding p caller now verdict hp]
            exact finalStatus_terminal _
          · exact ⟨hinv, h.landed, h.record⟩
      · cases hstep
  | remove p ok =>
      unfold Dispatch.step at hstep
      dsimp only at hstep
      split at hstep <;> cases hstep
      · refine ⟨hinv, h.landed, fun status hstatus => ?_⟩
        cases ok with
        | true => cases hstatus
        | false => exact h.record status hstatus
      · exact ⟨hinv, h.landed, h.record⟩
  | _ =>
      unfold Dispatch.step at hstep
      dsimp only at hstep
      repeat' split at hstep
      all_goals cases hstep
      all_goals exact ⟨hinv, h.landed, h.record⟩

/-- In a run in which no verdict is taken from a missing result after the child has written one, and
the child writes none after a verdict: a good result is never recorded as failed, success is
recorded only of a good result, and a terminal status stays what it is. -/
theorem job_status_final {job : DispatchJob} {w₀ w : World P} {ms : List (Move P)}
    (h₀ : Spawned w₀) (hrun : Run (TimelyStep job) w₀ ms w) :
    (∀ r t, w.landed = some (r, t) → r.ok = true → w.record ≠ some .failed) ∧
    (w.record = some .succeeded → ∃ r t, w.landed = some (r, t) ∧ r.ok = true) ∧
    (∀ ms' w' status status', Run (TimelyStep job) w ms' w' → w.record = some status →
      status.terminal = true → w'.record = some status' → status' = status) := by
  have hinv : Inv w := hrun.invariant (Inv.init h₀) fun _ _ _ hi hs => hi.step hs
  refine ⟨?_, ?_, ?_⟩
  · intro r t hlanded hok hfailed
    have hstatus := hinv.record _ hfailed rfl
    rw [hlanded] at hstatus
    rw [show finalStatus (some (r, t)) = statusOf r from rfl, statusOf_eq_succeeded.mpr hok]
      at hstatus
    cases hstatus
  · intro hrecord
    have hstatus := hinv.record _ hrecord rfl
    cases hlanded : w.landed with
    | none =>
        rw [hlanded] at hstatus
        cases hstatus
    | some out =>
        obtain ⟨r, t⟩ := out
        rw [hlanded] at hstatus
        exact ⟨r, t, rfl, statusOf_eq_succeeded.mp hstatus.symm⟩
  · intro ms' w' status status' hrun' hrecord hterminal hrecord'
    have hfinal : Final w.landed w' := by
      refine hrun'.invariant (I := Final w.landed) ⟨hinv, rfl, fun s hs => ?_⟩
        fun _ _ _ hf hs => hf.step hs
      obtain rfl := Option.some.inj (hrecord.symm.trans hs)
      exact hterminal
    rw [hinv.record status hrecord hterminal,
      hfinal.inv.record status' hrecord' (hfinal.record status' hrecord'), hfinal.landed]

end

/-! ## A result written between the look and the probe -/

def sampleJob : DispatchJob := ⟨some 0, 600, 30, some 77⟩

def sampleResult : DispatchResult := ⟨false, 0, "done", none, "clean"⟩

theorem job_status_final_sample : ∃ w : World Unit,
    w.record = some .succeeded ∧ ∃ r t, w.landed = some (r, t) ∧ r.ok = true := by
  have hspawned : Spawned ({ now := 1 } : World Unit) := ⟨rfl, fun _ => rfl, rfl⟩
  let w₁ : World Unit :=
    { now := 1, result := some sampleResult, landed := some (sampleResult, 1) }
  let w₂ := w₁.goto () (.looking .poll 1)
  let w₃ := w₂.goto () (.deciding .poll 1 (statusOf sampleResult))
  have hwrite : TimelyStep sampleJob ({ now := 1 } : World Unit) (.write sampleResult) w₁ :=
    ⟨rfl, fun _ _ _ _ h => (nomatch h), rfl⟩
  have hload : TimelyStep sampleJob w₁ (.load ()) w₂ := ⟨rfl, trivial⟩
  have hlook : TimelyStep sampleJob w₂ (.look () true) w₃ := ⟨rfl, trivial⟩
  have hpersist : TimelyStep sampleJob w₃ (.persist () true)
      { (w₃.goto () .idle) with record := some (statusOf sampleResult) } := ⟨rfl, trivial⟩
  have hrun := (((Run.single hwrite).snoc hload).snoc hlook).snoc hpersist
  have hsucceeded : statusOf sampleResult = .succeeded := by decide +kernel
  refine ⟨_, congrArg some hsucceeded, (job_status_final hspawned hrun).2.1 ?_⟩
  exact congrArg some hsucceeded

/-- A poller looks, the child writes a good result and exits, and the poller finds it dead. -/
def sampleRace : List (Move Unit) :=
  [.load (), .look () true, .write sampleResult, .exit, .probe () false, .persist () true]

theorem good_result_recorded_failed : ¬ ∀ (job : DispatchJob) (w₀ w : World Unit)
    (ms : List (Move Unit)) (r : DispatchResult) (t : ℚ), Spawned w₀ →
    Run (fun w m w' => step job w m = some w') w₀ ms w → w.landed = some (r, t) →
    r.ok = true → stuckPastTtl job t = false → w.record ≠ some .failed := by
  intro h
  obtain ⟨w, hw⟩ : ∃ w, sampleRace.foldlM (step sampleJob) { now := 1 } = some w := ⟨_, rfl⟩
  have hlanded : (sampleRace.foldlM (step sampleJob) { now := 1 }).map (fun w => w.landed) =
      some (some (sampleResult, 1)) := rfl
  have hrecord : (sampleRace.foldlM (step sampleJob) { now := 1 }).map (fun w => w.record) =
      some (some .failed) := rfl
  rw [hw] at hlanded hrecord
  exact h sampleJob { now := 1 } w sampleRace sampleResult 1 ⟨rfl, fun _ => rfl, rfl⟩
    (Run.of_foldlM hw) (Option.some.inj hlanded) (by decide +kernel) (by decide +kernel)
    (Option.some.inj hrecord)

end TrwMcp.Dispatch
