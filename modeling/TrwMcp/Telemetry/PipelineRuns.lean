import Mathlib.Data.List.Count
import TrwMcp.Lib.Exec
import TrwMcp.Telemetry.Pipeline

/-!
# What the buffer keeps

A line leaves a buffer only when a flush empties it. The flush has had its own group accepted by
then, so all depends on the other lines that the file holds: the condition on a run is that there
are none, or that they were accepted too.
-/

set_option linter.unusedSectionVars false

namespace TrwMcp.Telemetry

open Lib

section

variable {S E : Type} [DecidableEq S]

/-! ## Groups -/

theorem addToGroup_mem {groups : List (S × List E)} {source : S} {event : E} {g : S × List E}
    (h : g ∈ addToGroup groups source event) {e : E} (he : e ∈ g.2) :
    (g.1 = source ∧ e = event) ∨ ∃ g' ∈ groups, g'.1 = g.1 ∧ e ∈ g'.2 := by
  induction groups with
  | nil =>
      obtain rfl := List.mem_singleton.mp h
      exact .inl ⟨rfl, List.mem_singleton.mp he⟩
  | cons g₀ groups ih =>
      obtain ⟨s, group⟩ := g₀
      rw [addToGroup] at h
      split at h
      · next hs =>
          rcases List.mem_cons.mp h with rfl | h
          · rcases List.mem_append.mp he with he | he
            · exact .inr ⟨_, List.mem_cons_self, rfl, he⟩
            · exact .inl ⟨hs, List.mem_singleton.mp he⟩
          · exact .inr ⟨g, List.mem_cons_of_mem _ h, rfl, he⟩
      · rcases List.mem_cons.mp h with rfl | h
        · exact .inr ⟨_, List.mem_cons_self, rfl, he⟩
        · rcases ih h with hnew | ⟨g', hg', hold⟩
          · exact .inl hnew
          · exact .inr ⟨g', List.mem_cons_of_mem _ hg', hold⟩

theorem groupEvents_snoc (events : List (Option S × E)) (event : Option S × E) :
    groupEvents (events ++ [event]) =
      match event.1 with
      | some source => addToGroup (groupEvents events) source event.2
      | none => groupEvents events := by
  rw [groupEvents, List.foldl_append]
  rfl

theorem groupEvents_stamped {events : List (Option S × E)} {g : S × List E}
    (h : g ∈ groupEvents events) {e : E} (he : e ∈ g.2) : (some g.1, e) ∈ events := by
  induction events using List.reverseRecOn generalizing g with
  | nil => cases h
  | append_singleton events event ih =>
      obtain ⟨stamp, body⟩ := event
      rw [groupEvents_snoc] at h
      cases stamp with
      | none => exact List.mem_append_left _ (ih h he)
      | some source =>
          rcases addToGroup_mem h he with ⟨hsource, rfl⟩ | ⟨g', hg', hs, he'⟩
          · rw [hsource]
            exact List.mem_append_right _ (List.mem_singleton.mpr rfl)
          · exact List.mem_append_left _ (hs ▸ ih hg' he')

variable [DecidableEq E]

theorem count_addToGroup (groups : List (S × List E)) (source : S) (event e : E) :
    ((addToGroup groups source event).flatMap (·.2)).count e =
      (groups.flatMap (·.2)).count e + [event].count e := by
  induction groups with
  | nil => simp [addToGroup]
  | cons g groups ih =>
      rw [addToGroup]
      split
      · simp only [List.flatMap_cons, List.count_append]
        omega
      · simp only [List.flatMap_cons, List.count_append, ih]
        omega

theorem count_groupEvents (events : List (Option S × E)) (e : E) :
    (unstamped events).count e + ((groupEvents events).flatMap (·.2)).count e =
      (events.map (·.2)).count e := by
  induction events using List.reverseRecOn with
  | nil => rfl
  | append_singleton events event ih =>
      obtain ⟨stamp, body⟩ := event
      rw [groupEvents_snoc]
      cases stamp with
      | none =>
          simp only [unstamped, List.filter_append, List.map_append, List.count_append] at ih ⊢
          simp
          omega
      | some source =>
          simp only [unstamped, List.filter_append, List.map_append, List.count_append] at ih ⊢
          rw [count_addToGroup]
          simp
          omega

omit [DecidableEq S] [DecidableEq E] in
theorem flatten_slices {batchSize : Nat} (h : batchSize ≠ 0) (events : List E) :
    (slices batchSize events).flatten = events := by
  fun_induction slices batchSize events with
  | case1 events hempty => simp [hempty.resolve_left h]
  | case2 events hne ih => rw [List.flatten_cons, ih, List.take_append_drop]

end

/-! ## The invariant -/

section

variable {P A S E : Type} [DecidableEq P] [DecidableEq A] [DecidableEq S] [DecidableEq E]

/-- The events of a flush that are still to be counted. -/
def Flush.pending (flush : Flush S E) : List E :=
  match flush.stage with
  | .buffering _ | .writing _ _ _ | .configuring => flush.events.map (·.2)
  | .grouping todo | .emptying _ _ todo | .truncating _ _ _ todo => todo.flatMap (·.2)
  | .sending s todo => s.batches.flatten ++ todo.flatMap (·.2)
  | .done => []

/-- What the counters do not yet hold of the group that is being sent. -/
def Flush.openCounts (flush : Flush S E) : Nat × Nat :=
  match flush.stage with
  | .sending s _ => (s.sent, s.failed)
  | _ => (0, 0)

/-- Every event of the groups was taken from the queue under their source. -/
def Stamped (flush : Flush S E) (groups : List (S × List E)) : Prop :=
  ∀ g ∈ groups, ∀ e ∈ g.2, (some g.1, e) ∈ flush.events

/-- What the stage of a flush says about the logs and the answers. -/
def StageHolds (files : Files (LogName S) E) (accepted : List E) (flush : Flush S E) : Prop :=
  match flush.stage with
  | .buffering _ | .configuring => flush.countedSent = [] ∧ flush.countedFailed = []
  | .writing _ node _ =>
      files.Named node ∧ flush.countedSent = [] ∧ flush.countedFailed = []
  | .grouping todo => Stamped flush todo
  | .sending s todo =>
      Stamped flush todo ∧ Stamped flush [(s.source, s.batches.flatten)] ∧
        ∃ before, s.group = before ++ s.batches.flatten ∧
          (s.allSent = true → ∀ e ∈ before, e ∈ accepted)
  | .emptying _ group todo | .truncating _ group _ todo =>
      Stamped flush todo ∧ ∀ e ∈ group, e ∈ accepted
  | .done => True

/-- What holds of a flush that is under way. -/
structure FlushHolds (files : Files (LogName S) E) (queued : List (Option S × E))
    (accepted : List E) (flush : Flush S E) : Prop where
  queued : ∀ event ∈ flush.events, event ∈ queued
  once : ∀ e, flush.countedSent.count e + flush.countedFailed.count e + flush.pending.count e ≤
    (flush.events.map (·.2)).count e
  sent : flush.countedSent.length = flush.sent + flush.openCounts.1
  failed : flush.countedFailed.length = flush.failed + flush.openCounts.2
  stage : StageHolds files accepted flush

structure PipelineInv (w : PipelineWorld P A S E) : Prop where
  files : w.files.Sound
  kept : ∀ e ∈ w.written, e ∈ w.accepted ∨ ∃ i, w.files.Named i ∧ e ∈ w.files.text i
  flushes : ∀ a p flush, w.flushes a = some (p, flush) →
    FlushHolds w.files w.queued w.accepted flush
  queue : ∀ p, ∀ event ∈ w.queue p, event ∈ w.queued
  requests : ∀ r ∈ w.requests, ∀ e ∈ r.2, (some r.1, e) ∈ w.queued

/-- A buffer is emptied only of lines of the group that was sent, and of accepted ones. -/
def RegularPipeline (w : PipelineWorld P A S E) : PipelineDeed P A S E → Prop
  | .act a _ => ∀ p flush source group node todo, w.flushes a = some (p, flush) →
      flush.stage = .truncating source group node todo →
        ∀ e ∈ w.files.text node, e ∈ group ∨ e ∈ w.accepted
  | _ => True

theorem FlushHolds.mono {files files' : Files (LogName S) E} {queued queued' : List (Option S × E)}
    {accepted accepted' : List E} {flush : Flush S E} (h : FlushHolds files queued accepted flush)
    (hnamed : ∀ i, files.Named i → files'.Named i)
    (hqueued : ∀ event ∈ queued, event ∈ queued')
    (haccepted : ∀ e ∈ accepted, e ∈ accepted') : FlushHolds files' queued' accepted' flush := by
  refine ⟨fun event hevent => hqueued event (h.queued event hevent), h.once, h.sent, h.failed, ?_⟩
  have hstage := h.stage
  unfold StageHolds at hstage ⊢
  cases hs : flush.stage with
  | buffering todo => simpa [hs] using hstage
  | writing todo node event =>
      simp only [hs] at hstage ⊢
      exact ⟨hnamed node hstage.1, hstage.2⟩
  | configuring => simpa [hs] using hstage
  | grouping todo => simpa [hs] using hstage
  | sending s todo =>
      simp only [hs] at hstage ⊢
      obtain ⟨htodo, hbatches, before, hsplit, hall⟩ := hstage
      exact ⟨htodo, hbatches, before, hsplit, fun hsent e he => haccepted e (hall hsent e he)⟩
  | emptying source group todo =>
      simp only [hs] at hstage ⊢
      exact ⟨hstage.1, fun e he => haccepted e (hstage.2 e he)⟩
  | truncating source group node todo =>
      simp only [hs] at hstage ⊢
      exact ⟨hstage.1, fun e he => haccepted e (hstage.2 e he)⟩
  | done => trivial

theorem PipelineInv.setFlush {w v : PipelineWorld P A S E} (h : PipelineInv w) {a : A} {p : P}
    {flush : Flush S E} (hfiles : v.files.Sound)
    (hnamed : ∀ i, w.files.Named i → v.files.Named i)
    (hkept : ∀ e ∈ v.written, e ∈ v.accepted ∨ ∃ i, v.files.Named i ∧ e ∈ v.files.text i)
    (hflushes : v.flushes = w.flushes) (hqueued : v.queued = w.queued)
    (hqueue : ∀ p, ∀ event ∈ v.queue p, event ∈ w.queue p)
    (haccepted : ∀ e ∈ w.accepted, e ∈ v.accepted)
    (hrequests : ∀ r ∈ v.requests, ∀ e ∈ r.2, (some r.1, e) ∈ w.queued)
    (hflush : FlushHolds v.files w.queued v.accepted flush) :
    PipelineInv (v.setFlush a p flush) := by
  refine ⟨hfiles, hkept, fun a' p' flush' hflush' => ?_, fun p event hevent => ?_, ?_⟩
  · simp only [PipelineWorld.setFlush, hflushes, Function.update_apply] at hflush'
    change FlushHolds v.files v.queued v.accepted flush'
    rw [hqueued]
    split at hflush'
    · obtain ⟨-, rfl⟩ := Prod.mk.inj (Option.some.inj hflush')
      exact hflush
    · exact (h.flushes a' p' flush' hflush').mono hnamed (fun _ he => he) haccepted
  · change event ∈ v.queued
    rw [hqueued]
    exact h.queue p event (hqueue p event hevent)
  · change ∀ r ∈ v.requests, ∀ e ∈ r.2, (some r.1, e) ∈ v.queued
    rw [hqueued]
    exact hrequests

theorem PipelineInv.goOn {w : PipelineWorld P A S E} (h : PipelineInv w) {a : A} {p : P}
    {flush : Flush S E} (hflush : FlushHolds w.files w.queued w.accepted flush) :
    PipelineInv (w.setFlush a p flush) :=
  h.setFlush h.files (fun _ hi => hi) h.kept rfl rfl (fun _ _ he => he) (fun _ he => he) h.requests
    hflush

theorem PipelineInv.start : PipelineInv ({} : PipelineWorld P A S E) :=
  ⟨Files.Sound.empty, fun _ h => (nomatch h), fun _ _ _ h => (nomatch h), fun _ _ h => (nomatch h),
    fun _ h => (nomatch h)⟩

theorem PipelineInv.enqueue {config : PipelineConfig} {w : PipelineWorld P A S E}
    (h : PipelineInv w) (p : P) (source : Option S) (event : E) :
    PipelineInv (w.enqueue config p source event) := by
  have hgrow : ∀ e ∈ w.queued, e ∈ w.queued ++ [(source, event)] :=
    fun e he => List.mem_append_left _ he
  refine ⟨h.files, h.kept, fun a p' flush hflush => ?_, fun p' e he => ?_, fun r hr e he => ?_⟩
  · exact (h.flushes a p' flush hflush).mono (fun _ hi => hi) hgrow fun _ he => he
  · simp only [PipelineWorld.enqueue, Function.update_apply] at he
    split at he
    · have hpushed : e ∈ w.queue p ++ [(source, event)] := by
        unfold pushBounded at he
        split at he
        · exact List.mem_of_mem_tail he
        · exact he
      rcases List.mem_append.mp hpushed with he | he
      · exact hgrow e (h.queue p e he)
      · exact List.mem_append_right _ he
    · exact hgrow e (h.queue p' e he)
  · exact hgrow _ (h.requests r hr e he)

theorem PipelineInv.flushNow {w : PipelineWorld P A S E} (h : PipelineInv w) (a : A) (p : P) :
    PipelineInv (w.flushNow a p) := by
  unfold PipelineWorld.flushNow
  split
  · exact h
  · have hqueue : ∀ p', ∀ event ∈ Function.update w.queue p [] p', event ∈ w.queue p' := by
      intro p' event hevent
      rw [Function.update_apply] at hevent
      split at hevent
      · cases hevent
      · exact hevent
    simp only
    split
    · refine h.setFlush h.files (fun _ hi => hi) h.kept rfl rfl hqueue (fun _ he => he) h.requests
        ⟨h.queue p, fun e => ?_, rfl, rfl, trivial⟩
      simp [Flush.pending]
    · refine h.setFlush h.files (fun _ hi => hi) h.kept rfl rfl hqueue (fun _ he => he) h.requests
        ⟨h.queue p, fun e => ?_, rfl, rfl, ⟨rfl, rfl⟩⟩
      simp [Flush.pending]

theorem PipelineInv.die {w : PipelineWorld P A S E} (h : PipelineInv w) (a : A) :
    PipelineInv { w with flushes := Function.update w.flushes a none } := by
  refine ⟨h.files, h.kept, fun a' p flush hflush => ?_, h.queue, h.requests⟩
  simp only [Function.update_apply] at hflush
  split at hflush
  · cases hflush
  · exact h.flushes a' p flush hflush

theorem PipelineInv.rotate {w : PipelineWorld P A S E} (h : PipelineInv w) (source : S)
    (index : Nat) (hfree : w.files.node (.segment source index) = none) :
    PipelineInv
      { w with
          files := (w.files.rename (.buffer source) (.segment source index)).opened
            (.buffer source) } := by
  have hrenamed := h.files.rename (.buffer source) (.segment source index)
  have hnamed : ∀ i, w.files.Named i →
      ((w.files.rename (.buffer source) (.segment source index)).opened (.buffer source)).Named i :=
    fun i hi => (hi.rename hfree).opened _
  refine ⟨hrenamed.opened _, fun e he => ?_, fun a p flush hflush => ?_, h.queue, h.requests⟩
  · rcases h.kept e he with hsent | ⟨i, hi, hline⟩
    · exact .inl hsent
    · exact .inr ⟨i, hnamed i hi, by rwa [Files.text_opened hrenamed _ (hi.rename hfree)]⟩
  · exact (h.flushes a p flush hflush).mono hnamed (fun _ he => he) fun _ he => he

/-! ## Stages of a flush -/

theorem PipelineInv.buffering {config : PipelineConfig} {w : PipelineWorld P A S E}
    (h : PipelineInv w) {a : A} {p : P} {flush : Flush S E} (hflush : w.flushes a = some (p, flush))
    {todo : List (S × E)} (hstage : flush.stage = .buffering todo) (meets : Meets) :
    PipelineInv (w.act config a p flush meets) := by
  obtain ⟨hqueued, honce, hsent, hfailed, hholds⟩ := h.flushes a p flush hflush
  simp only [Flush.pending, Flush.openCounts, StageHolds, hstage] at honce hsent hfailed hholds
  simp only [PipelineWorld.act, hstage]
  cases todo with
  | nil => exact h.goOn ⟨hqueued, honce, hsent, hfailed, hholds⟩
  | cons next todo =>
      obtain ⟨source, event⟩ := next
      simp only
      split
      · have hopened : ∀ i, w.files.Named i → (w.files.opened (.buffer source)).Named i :=
          fun i hi => hi.opened _
        refine h.setFlush (h.files.opened _) hopened (fun e he => ?_) rfl rfl (fun _ _ he => he)
          (fun _ he => he) h.requests ⟨hqueued, honce, hsent, hfailed, ?_, hholds⟩
        · rcases h.kept e he with hacc | ⟨i, hi, hline⟩
          · exact .inl hacc
          · exact .inr ⟨i, hopened i hi, by rwa [Files.text_opened h.files _ hi]⟩
        · exact ⟨_, Files.openNode_named w.files (.buffer source)⟩
      · exact h.goOn ⟨hqueued, honce, hsent, hfailed, hholds⟩

theorem PipelineInv.writing {config : PipelineConfig} {w : PipelineWorld P A S E}
    (h : PipelineInv w) {a : A} {p : P} {flush : Flush S E} (hflush : w.flushes a = some (p, flush))
    {todo : List (S × E)} {node : Nat} {event : E} (hstage : flush.stage = .writing todo node event)
    (meets : Meets) : PipelineInv (w.act config a p flush meets) := by
  obtain ⟨hqueued, honce, hsent, hfailed, hholds⟩ := h.flushes a p flush hflush
  simp only [Flush.pending, Flush.openCounts, StageHolds, hstage] at honce hsent hfailed hholds
  obtain ⟨hnamed, hholds⟩ := hholds
  simp only [PipelineWorld.act, hstage]
  split
  · refine h.setFlush (h.files.write _ _) (fun _ hi => hi) (fun e he => ?_) rfl rfl
      (fun _ _ he => he) (fun _ he => he) h.requests ⟨hqueued, honce, hsent, hfailed, hholds⟩
    rcases List.mem_append.mp he with he | he
    · refine (h.kept e he).imp_right ?_
      rintro ⟨i, hi, hline⟩
      exact ⟨i, hi, Files.mem_write _ _ _ hline⟩
    · refine .inr ⟨node, hnamed, ?_⟩
      change e ∈ (w.files.write node [event]).text node
      rw [Files.text_write_self]
      exact List.mem_append_right _ he
  · exact h.goOn ⟨hqueued, honce, hsent, hfailed, hholds⟩

theorem PipelineInv.configuring {config : PipelineConfig} {w : PipelineWorld P A S E}
    (h : PipelineInv w) {a : A} {p : P} {flush : Flush S E} (hflush : w.flushes a = some (p, flush))
    (hstage : flush.stage = .configuring) (meets : Meets) :
    PipelineInv (w.act config a p flush meets) := by
  obtain ⟨hqueued, -, hsent, -, hholds⟩ := h.flushes a p flush hflush
  simp only [Flush.openCounts, StageHolds, hstage] at hsent hholds
  simp only [PipelineWorld.act, hstage]
  split
  · refine h.goOn ⟨hqueued, fun e => ?_, hsent, rfl, fun g hg e he => groupEvents_stamped hg he⟩
    have hcount := count_groupEvents flush.events e
    simp only [Flush.pending, hholds.1, List.count_nil, zero_add]
    exact hcount.le
  · refine h.goOn ⟨hqueued, fun e => ?_, hsent, by simp [Flush.openCounts], trivial⟩
    simp [Flush.pending, hholds.1]

theorem PipelineInv.grouping {config : PipelineConfig} {w : PipelineWorld P A S E}
    (h : PipelineInv w) {a : A} {p : P} {flush : Flush S E} (hflush : w.flushes a = some (p, flush))
    {todo : List (S × List E)} (hstage : flush.stage = .grouping todo) (meets : Meets) :
    PipelineInv (w.act config a p flush meets) := by
  obtain ⟨hqueued, honce, hsent, hfailed, hholds⟩ := h.flushes a p flush hflush
  simp only [Flush.pending, Flush.openCounts, StageHolds, hstage] at honce hsent hfailed hholds
  simp only [PipelineWorld.act, hstage]
  cases todo with
  | nil => exact h.goOn ⟨hqueued, honce, hsent, hfailed, trivial⟩
  | cons next todo =>
      obtain ⟨source, group⟩ := next
      have hrest : Stamped flush todo := fun g hg => hholds g (List.mem_cons_of_mem _ hg)
      simp only
      split
      · refine h.goOn ⟨hqueued, fun e => ?_, hsent, hfailed, hrest⟩
        have he := honce e
        simp only [List.flatMap_cons, List.count_append] at he
        simp only [Flush.pending]
        omega
      · split
        · exact h.die a
        · next hsize =>
            have hflatten := flatten_slices hsize group
            refine h.goOn ⟨hqueued, fun e => ?_, hsent, hfailed, hrest, ?_,
              [], by simp [hflatten], fun _ e he => by cases he⟩
            · simp only [Flush.pending, hflatten]
              exact honce e
            · rintro g hg e he
              obtain rfl := List.mem_singleton.mp hg
              rw [hflatten] at he
              exact hholds _ List.mem_cons_self e he

theorem PipelineInv.sending {config : PipelineConfig} {w : PipelineWorld P A S E}
    (h : PipelineInv w) {a : A} {p : P} {flush : Flush S E} (hflush : w.flushes a = some (p, flush))
    {s : Sending S E} {todo : List (S × List E)} (hstage : flush.stage = .sending s todo)
    (meets : Meets) : PipelineInv (w.act config a p flush meets) := by
  obtain ⟨hqueued, honce, hsent, hfailed, hholds⟩ := h.flushes a p flush hflush
  simp only [Flush.pending, Flush.openCounts, StageHolds, hstage] at honce hsent hfailed hholds
  obtain ⟨htodo, hbatches, before, hsplit, hbefore⟩ := hholds
  simp only [PipelineWorld.act, hstage]
  obtain ⟨source, group, batches, sent, failed, allSent⟩ := s
  cases batches with
  | nil =>
      simp only at hsplit hbefore ⊢
      simp only [List.flatten_nil, List.nil_append] at honce
      by_cases hall : (allSent && decide (0 < sent)) = true
      · rw [if_pos hall]
        simp only [Bool.and_eq_true, decide_eq_true_eq] at hall
        rw [List.flatten_nil, List.append_nil] at hsplit
        exact h.goOn ⟨hqueued, honce, hsent, hfailed, htodo, fun e he =>
          hbefore hall.1 e (hsplit ▸ he)⟩
      · rw [if_neg hall]
        exact h.goOn ⟨hqueued, honce, hsent, hfailed, htodo⟩
  | cons batch batches =>
      simp only at hsplit hbefore ⊢
      have hbatch : ∀ e ∈ batch, (some source, e) ∈ flush.events := fun e he =>
        hbatches _ List.mem_cons_self e (by simp [he])
      have hrest : Stamped flush [(source, batches.flatten)] := by
        rintro g hg e he
        obtain rfl := List.mem_singleton.mp hg
        exact hbatches _ List.mem_cons_self e (by
          rw [List.flatten_cons]
          exact List.mem_append_right _ he)
      have hrequests : ∀ n, ∀ r ∈ w.requests ++ List.replicate n (source, batch), ∀ e ∈ r.2,
          (some r.1, e) ∈ w.queued := by
        intro n r hr e he
        rcases List.mem_append.mp hr with hr | hr
        · exact h.requests r hr e he
        · obtain rfl := List.eq_of_mem_replicate hr
          exact hqueued _ (hbatch e he)
      split
      · have hacc : ∀ e ∈ w.accepted, e ∈ w.accepted ++ batch := fun e he =>
          List.mem_append_left _ he
        refine h.setFlush h.files (fun _ hi => hi) (fun e he => (h.kept e he).imp_left (hacc e))
          rfl rfl (fun _ _ he => he) hacc (hrequests _) ⟨hqueued, fun e => ?_, ?_, hfailed, ?_⟩
        · have he := honce e
          simp only [List.flatten_cons, List.count_append] at he
          simp only [Flush.pending, List.count_append]
          omega
        · simp only [Flush.openCounts, List.length_append, hsent]
          omega
        · refine ⟨htodo, hrest, before ++ batch, by simpa using hsplit, ?_⟩
          intro hall e he
          rcases List.mem_append.mp he with he | he
          · exact hacc e (hbefore hall e he)
          · exact List.mem_append_right _ he
      · refine h.setFlush h.files (fun _ hi => hi) h.kept rfl rfl (fun _ _ he => he)
          (fun _ he => he) (hrequests _) ⟨hqueued, fun e => ?_, hsent, ?_, ?_⟩
        · have he := honce e
          simp only [List.flatten_cons, List.count_append] at he
          simp only [Flush.pending, List.count_append]
          omega
        · simp only [Flush.openCounts, List.length_append, hfailed]
          omega
        · exact ⟨htodo, hrest, before ++ batch, by simpa using hsplit, fun hall => by cases hall⟩

theorem PipelineInv.emptying {config : PipelineConfig} {w : PipelineWorld P A S E}
    (h : PipelineInv w) {a : A} {p : P} {flush : Flush S E} (hflush : w.flushes a = some (p, flush))
    {source : S} {group : List E} {todo : List (S × List E)}
    (hstage : flush.stage = .emptying source group todo) (meets : Meets) :
    PipelineInv (w.act config a p flush meets) := by
  obtain ⟨hqueued, honce, hsent, hfailed, hholds⟩ := h.flushes a p flush hflush
  simp only [Flush.pending, Flush.openCounts, StageHolds, hstage] at honce hsent hfailed hholds
  simp only [PipelineWorld.act, hstage]
  split
  · split
    · exact h.goOn ⟨hqueued, honce, hsent, hfailed, hholds⟩
    · exact h.goOn ⟨hqueued, honce, hsent, hfailed, hholds.1⟩
  · exact h.goOn ⟨hqueued, honce, hsent, hfailed, hholds.1⟩

theorem PipelineInv.truncating {config : PipelineConfig} {w : PipelineWorld P A S E}
    (h : PipelineInv w) {a : A} {p : P} {flush : Flush S E} (hflush : w.flushes a = some (p, flush))
    {source : S} {group : List E} {node : Nat} {todo : List (S × List E)}
    (hstage : flush.stage = .truncating source group node todo) (meets : Meets)
    (hregular : ∀ e ∈ w.files.text node, e ∈ group ∨ e ∈ w.accepted) :
    PipelineInv (w.act config a p flush meets) := by
  obtain ⟨hqueued, honce, hsent, hfailed, hholds⟩ := h.flushes a p flush hflush
  simp only [Flush.pending, Flush.openCounts, StageHolds, hstage] at honce hsent hfailed hholds
  simp only [PipelineWorld.act, hstage]
  split
  · refine h.setFlush (h.files.truncate node) (fun _ hi => hi) (fun e he => ?_) rfl rfl
      (fun _ _ he => he) (fun _ he => he) h.requests ⟨hqueued, honce, hsent, hfailed, hholds.1⟩
    rcases h.kept e he with hacc | ⟨i, hi, hline⟩
    · exact .inl hacc
    · by_cases hnode : i = node
      · subst hnode
        exact .inl ((hregular e hline).elim (hholds.2 e) id)
      · refine .inr ⟨i, hi, ?_⟩
        change e ∈ Function.update w.files.text node [] i
        rwa [Function.update_of_ne hnode]
  · exact h.goOn ⟨hqueued, honce, hsent, hfailed, hholds.1⟩

theorem PipelineInv.exec {config : PipelineConfig} {w : PipelineWorld P A S E}
    (h : PipelineInv w) {deed : PipelineDeed P A S E} (hregular : RegularPipeline w deed) :
    PipelineInv (w.exec config deed) := by
  cases deed with
  | enqueue p source event => exact h.enqueue p source event
  | flushNow a p => exact h.flushNow a p
  | act a meets =>
      simp only [PipelineWorld.exec]
      cases hflush : w.flushes a with
      | none => exact h
      | some found =>
          obtain ⟨p, flush⟩ := found
          simp only
          cases hstage : flush.stage with
          | buffering todo => exact h.buffering hflush hstage meets
          | writing todo node event => exact h.writing hflush hstage meets
          | configuring => exact h.configuring hflush hstage meets
          | grouping todo => exact h.grouping hflush hstage meets
          | sending s todo => exact h.sending hflush hstage meets
          | emptying source group todo => exact h.emptying hflush hstage meets
          | truncating source group node todo =>
              exact h.truncating hflush hstage meets
                (hregular p flush source group node todo hflush hstage)
          | done =>
              simp only [PipelineWorld.act, hstage]
              exact h
  | die a => exact h.die a
  | rotate source index =>
      simp only [PipelineWorld.exec]
      split
      · next hfree => exact h.rotate source index hfree.2
      · exact h

/-! ## Runs -/

/-- One step that meets the condition. -/
def RegularPipelineStep (config : PipelineConfig) (w : PipelineWorld P A S E)
    (deed : PipelineDeed P A S E) (w' : PipelineWorld P A S E) : Prop :=
  w' = w.exec config deed ∧ RegularPipeline w deed

end

/-! ### A flush that empties the buffer of an earlier one -/

def sampleConfig : PipelineConfig := ⟨100, 1, 10000⟩

def meetsAnswer (accepted : Bool) : Meets :=
  { urls := ["https://api.example.com"], post := fun _ _ => ⟨true, accepted⟩ }

def FlushStage.truncates {S E : Type} : FlushStage S E → Bool
  | .truncating _ _ _ _ => true
  | _ => false

/-- A whole flush of one event. -/
def flushDeeds (a : Nat) (accepted : Bool) : List (PipelineDeed Nat Nat String Nat) :=
  .flushNow a 0 :: List.replicate 10 (.act a (meetsAnswer accepted))

def pipelineRun (deeds : List (PipelineDeed Nat Nat String Nat)) :
    PipelineWorld Nat Nat String Nat :=
  deeds.foldl (PipelineWorld.exec sampleConfig) {}

/-- The first event is refused, the second one accepted. -/
def refusedDeeds : List (PipelineDeed Nat Nat String Nat) :=
  [.enqueue 0 (some ".trw") 1] ++ flushDeeds 0 false ++ [.enqueue 0 (some ".trw") 2]

/-- The event is taken from the queue and written to the buffer. -/
def bufferedDeeds : List (PipelineDeed Nat Nat String Nat) :=
  [.enqueue 0 (some ".trw") 1, .flushNow 0 0, .act 0 {}, .act 0 {}]

end TrwMcp.Telemetry
