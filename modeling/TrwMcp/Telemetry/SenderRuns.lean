import TrwMcp.Telemetry.PipelineRuns
import TrwMcp.Telemetry.Sender

/-!
# What is sent and what is left

What was stamped without consent is in no batch, whatever the schedule. That a record is not lost
rests on the queue being, when it is rewritten, what was read: the condition on a run is that no
client appends in between, or to a queue that was replaced after it had opened it.
-/

set_option linter.unusedSectionVars false

namespace TrwMcp.Telemetry

open Lib Handoff State

theorem recordConsented_stampConsent (record : Record) (consented : Bool) :
    recordConsented (stampConsent record consented) = consented := by
  unfold recordConsented stampConsent
  rw [Dict.lookup_set_self]
  cases consented <;> rfl

section

variable {A : Type} [DecidableEq A]

/-! ## The condition -/

/-- Nothing was appended since the queue was read, and what is open is the queue. -/
def RegularSender (w : SenderWorld A) : SenderDeed A → Prop
  | .write a => ∀ node record consented, w.writers a = some (node, record, consented) →
      w.files.node () = some node
  | .act _ => ∀ read remaining result, w.stage = .rewriting read remaining result → w.queue = read
  | _ => True

/-! ## The invariant -/

/-- What was read is in the order in which it was written, and is marked as read. -/
structure ReadBefore (written : List QueueLine) (marks : List Nat) (read : List QueueLine) :
    Prop where
  order : read.Sublist written
  marked : ∀ line ∈ read, line.tag ∈ marks

/-- What the stage of a `send` says. -/
def SendHolds (written : List QueueLine) (marks accepted : List Nat) : SendStage → Prop
  | .idle | .reading => True
  | .sending read done unsent batches sent failed =>
      ReadBefore written marks read ∧ read.filter QueueLine.consented = done ++ batches.flatten ∧
        unsent.Sublist done ∧ (∀ line ∈ done, line ∈ unsent ∨ line.tag ∈ accepted) ∧
          sent + failed = done.length ∧ failed = unsent.length
  | .rewriting read remaining result =>
      ReadBefore written marks read ∧ remaining.Sublist (read.filter QueueLine.consented) ∧
        (∀ line ∈ read, line.consented = true → line ∈ remaining ∨ line.tag ∈ accepted) ∧
          result.sent + result.failed = result.consented ∧ result.remaining = result.failed

structure SenderInv (w : SenderWorld A) : Prop where
  named : (w.files.node ()).isSome = true
  order : w.queue.Sublist w.written
  tags : (w.written.map (·.tag)).Nodup
  old : ∀ line ∈ w.written, line.tag < w.next
  kept : ∀ line ∈ w.written, line ∈ w.queue ∨ (line.consented = true ∧ line.tag ∈ w.accepted) ∨
    (line.consented = false ∧ line.tag ∈ w.read)
  accepted : ∀ tag ∈ w.accepted, tag ∈ w.read
  stamps : ∀ line ∈ w.written, ∀ consented, line.stamp = some consented →
    line.consented = consented
  writers : ∀ a node record consented, w.writers a = some (node, record, consented) →
    recordConsented record = consented
  requests : ∀ batch ∈ w.requests, ∀ record ∈ batch, ∃ line ∈ w.written,
    line.consented = true ∧ line.record.map stripConsentMarker = some record
  results : ∀ result ∈ w.results, result.sent + result.failed = result.consented ∧
    result.remaining = result.failed
  stage : SendHolds w.written w.read w.accepted w.stage

theorem SenderInv.goOn {w v : SenderWorld A} (h : SenderInv w) (hfiles : v.files = w.files)
    (hwriters : v.writers = w.writers) (hnext : v.next = w.next) (hwritten : v.written = w.written)
    (haccepted : ∀ tag ∈ w.accepted, tag ∈ v.accepted) (hread : ∀ tag ∈ w.read, tag ∈ v.read)
    (hwithin : ∀ tag ∈ v.accepted, tag ∈ v.read)
    (hrequests : ∀ batch ∈ v.requests, ∀ record ∈ batch, ∃ line ∈ v.written,
      line.consented = true ∧ line.record.map stripConsentMarker = some record)
    (hresults : ∀ result ∈ v.results, result.sent + result.failed = result.consented ∧
      result.remaining = result.failed)
    (hstage : SendHolds v.written v.read v.accepted v.stage) : SenderInv v := by
  have hqueue : v.queue = w.queue := by rw [SenderWorld.queue, SenderWorld.queue, hfiles]
  refine ⟨hfiles ▸ h.named, ?_, ?_, ?_, ?_, hwithin, ?_, ?_, hrequests, hresults, hstage⟩
  · rw [hqueue, hwritten]
    exact h.order
  · rw [hwritten]
    exact h.tags
  · rw [hwritten, hnext]
    exact h.old
  · rw [hwritten, hqueue]
    intro line hline
    rcases h.kept line hline with hqueued | ⟨hcons, hacc⟩ | ⟨hcons, hacc⟩
    · exact .inl hqueued
    · exact .inr (.inl ⟨hcons, haccepted _ hacc⟩)
    · exact .inr (.inr ⟨hcons, hread _ hacc⟩)
  · rw [hwritten]
    exact h.stamps
  · rw [hwriters]
    exact h.writers

theorem mem_zipIdx_tags {rows : List (Loaded Json)} {line : QueueLine}
    (h : line ∈ rows.zipIdx.map fun m => (⟨m.2, m.1, none⟩ : QueueLine)) :
    line.tag < rows.length ∧ line.stamp = none := by
  obtain ⟨m, hm, rfl⟩ := List.mem_map.mp h
  exact ⟨(List.mem_zipIdx' hm).1, rfl⟩

theorem SenderInv.start (rows : List (Loaded Json)) :
    SenderInv (SenderWorld.start rows : SenderWorld A) := by
  have hqueue : (SenderWorld.start rows : SenderWorld A).queue =
      (SenderWorld.start rows : SenderWorld A).written := by
    simp [SenderWorld.queue, SenderWorld.start, Files.read, Files.publish]
  refine ⟨by simp [SenderWorld.start, Files.publish], hqueue ▸ .refl _, ?_, ?_, ?_,
    by rintro _ ⟨⟩, ?_, by rintro _ _ _ _ ⟨⟩, by rintro _ ⟨⟩, by rintro _ ⟨⟩, trivial⟩
  · change ((rows.zipIdx.map fun m => (⟨m.2, m.1, none⟩ : QueueLine)).map (·.tag)).Nodup
    rw [List.map_map]
    change (rows.zipIdx.map Prod.snd).Nodup
    rw [List.zipIdx_map_snd]
    exact List.nodup_range'
  · exact fun line hline => (mem_zipIdx_tags hline).1
  · intro line hline
    exact .inl (hqueue ▸ hline)
  · intro line hline consented hstamp
    rw [(mem_zipIdx_tags hline).2] at hstamp
    cases hstamp

/-! ## Clients -/

theorem SendHolds.append {written : List QueueLine} {marks accepted : List Nat} {stage : SendStage}
    (h : SendHolds written marks accepted stage) (line : QueueLine) :
    SendHolds (written ++ [line]) marks accepted stage := by
  cases stage with
  | idle => trivial
  | reading => trivial
  | sending read done unsent batches sent failed =>
      exact ⟨⟨h.1.order.trans (List.sublist_append_left _ _), h.1.marked⟩, h.2⟩
  | rewriting read remaining result =>
      exact ⟨⟨h.1.order.trans (List.sublist_append_left _ _), h.1.marked⟩, h.2⟩

theorem SenderInv.write {config : SenderConfig} {w : SenderWorld A} (h : SenderInv w) {a : A}
    (hregular : RegularSender w (.write a)) : SenderInv (w.exec config (.write a)) := by
  simp only [SenderWorld.exec]
  split
  · next node record consented hwriter =>
      have hnode := hregular node record consented hwriter
      generalize hline : (⟨w.next, .value (.obj record), some consented⟩ : QueueLine) = line
      have htag : line.tag = w.next := by rw [← hline]
      have hqueue : SenderWorld.queue
          { w with
              files := w.files.write node [line]
              writers := Function.update w.writers a none
              next := w.next + 1
              written := w.written ++ [line] } = w.queue ++ [line] := by
        simp [SenderWorld.queue, Files.read, Files.write, hnode]
      refine ⟨h.named, ?_, ?_, ?_, ?_, h.accepted, ?_, ?_, ?_, h.results, ?_⟩
      · rw [hqueue]
        exact h.order.append (.refl _)
      · rw [List.map_append, List.nodup_append]
        refine ⟨h.tags, by simp, fun tag htags tag' htag' => ?_⟩
        obtain ⟨other, hother, rfl⟩ := List.mem_map.mp htags
        rw [List.map_singleton, List.mem_singleton] at htag'
        exact fun heq => (h.old other hother).ne (heq.trans (htag'.trans htag))
      · intro other hother
        rcases List.mem_append.mp hother with hother | hother
        · exact Nat.lt_succ_of_lt (h.old other hother)
        · rw [List.mem_singleton.mp hother, htag]
          exact Nat.lt_succ_self _
      · intro other hother
        rw [hqueue]
        rcases List.mem_append.mp hother with hother | hother
        · exact (h.kept other hother).imp_left (List.mem_append_left _)
        · exact .inl (List.mem_append_right _ hother)
      · intro other hother stamp hstamp
        rcases List.mem_append.mp hother with hother | hother
        · exact h.stamps other hother stamp hstamp
        · obtain rfl := List.mem_singleton.mp hother
          subst hline
          obtain rfl := Option.some.inj hstamp
          exact h.writers a node record _ hwriter
      · intro a' node' record' consented' hwriter'
        simp only [Function.update_apply] at hwriter'
        split at hwriter'
        · cases hwriter'
        · exact h.writers a' node' record' consented' hwriter'
      · intro batch hbatch r hr
        obtain ⟨other, hother, hrest⟩ := h.requests batch hbatch r hr
        exact ⟨other, List.mem_append_left _ hother, hrest⟩
      · exact h.stage.append line
  · exact h

theorem SenderInv.openQueue {config : SenderConfig} {w : SenderWorld A} (h : SenderInv w) (a : A)
    (record : Record) (consented : Bool) :
    SenderInv (w.exec config (.openQueue a record consented)) := by
  simp only [SenderWorld.exec]
  split
  · exact h
  · have hopened : w.files.opened () = w.files := by rw [Files.opened, if_pos h.named]
    rw [hopened]
    refine ⟨h.named, h.order, h.tags, h.old, h.kept, h.accepted, h.stamps, ?_, h.requests,
      h.results, h.stage⟩
    intro a' node' record' consented' hwriter'
    simp only [Function.update_apply] at hwriter'
    split at hwriter'
    · simp only [Option.some.injEq, Prod.mk.injEq] at hwriter'
      obtain ⟨-, rfl, rfl⟩ := hwriter'
      exact recordConsented_stampConsent record _
    · exact h.writers a' node' record' consented' hwriter'

/-! ## The sender -/

theorem SenderInv.skip {w : SenderWorld A} (h : SenderInv w) (reason : String) :
    SenderInv (w.skip reason) := by
  refine h.goOn rfl rfl rfl rfl (fun _ ht => ht) (fun _ ht => ht) h.accepted h.requests ?_ h.stage
  intro result hresult
  rcases List.mem_append.mp hresult with hresult | hresult
  · exact h.results result hresult
  · obtain rfl := List.mem_singleton.mp hresult
    exact ⟨rfl, rfl⟩

theorem SenderInv.setStage {w : SenderWorld A} (h : SenderInv w) {stage : SendStage}
    (hstage : SendHolds w.written w.read w.accepted stage) : SenderInv { w with stage } :=
  h.goOn rfl rfl rfl rfl (fun _ ht => ht) (fun _ ht => ht) h.accepted h.requests h.results hstage

theorem SenderInv.send {config : SenderConfig} {w : SenderWorld A} (h : SenderInv w)
    (meets : SendMeets) : SenderInv (w.send config meets) := by
  unfold SenderWorld.send
  split
  · split
    · exact h.skip _
    · split
      · exact h.skip _
      · split
        · exact h.skip _
        · split
          · exact h.skip _
          · split
            · exact h.skip _
            · exact h.setStage trivial
  · exact h

theorem SenderInv.reading {config : SenderConfig} {w : SenderWorld A} (h : SenderInv w)
    (hstage : w.stage = .reading) (meets : SendMeets) : SenderInv (w.act config meets) := by
  simp only [SenderWorld.act, hstage]
  have hread : ∀ tag ∈ w.read, tag ∈ w.read ++ w.queue.map (·.tag) := fun tag htag =>
    List.mem_append_left _ htag
  have hmarked : ∀ line ∈ w.queue, line.tag ∈ w.read ++ w.queue.map (·.tag) := fun line hline =>
    List.mem_append_right _ (List.mem_map_of_mem hline)
  split
  · exact (h.skip "empty_queue").setStage trivial
  · split
    · next hnone =>
        have hnone := List.isEmpty_iff.mp hnone
        refine h.goOn rfl rfl rfl rfl (fun _ ht => ht) hread
          (fun tag htag => hread tag (h.accepted tag htag)) h.requests h.results
          ⟨⟨h.order, hmarked⟩, by rw [hnone], fun line hline hconsented => ?_, rfl, rfl⟩
        have hmem : line ∈ w.queue.filter QueueLine.consented :=
          List.mem_filter.mpr ⟨hline, hconsented⟩
        rw [hnone] at hmem
        cases hmem
    · split
      · exact h.setStage trivial
      · next hsize =>
          refine h.goOn rfl rfl rfl rfl (fun _ ht => ht) hread
            (fun tag htag => hread tag (h.accepted tag htag)) h.requests h.results
            ⟨⟨h.order, hmarked⟩, ?_, .refl _, fun _ hline => (nomatch hline), rfl, rfl⟩
          rw [flatten_slices hsize, List.nil_append]

theorem SenderInv.sending {config : SenderConfig} {w : SenderWorld A} (h : SenderInv w)
    {read done unsent : List QueueLine} {batches : List (List QueueLine)} {sent failed : Nat}
    (hstage : w.stage = .sending read done unsent batches sent failed) (meets : SendMeets) :
    SenderInv (w.act config meets) := by
  have hholds := h.stage
  rw [hstage] at hholds
  obtain ⟨hbefore, hsplit, hunsent, hdone, hcount, hfailed⟩ := hholds
  cases batches with
  | nil =>
      simp only [SenderWorld.act, hstage]
      rw [List.flatten_nil, List.append_nil] at hsplit
      refine h.setStage ⟨hbefore, hsplit ▸ hunsent, fun line hline hconsented => ?_, ?_, ?_⟩
      · exact hdone line (hsplit ▸ List.mem_filter.mpr ⟨hline, hconsented⟩)
      · rw [hsplit]
        exact hcount
      · exact hfailed.symm
  | cons batch batches =>
      have hbatch : ∀ line ∈ batch, line ∈ read ∧ line.consented = true := by
        intro line hline
        refine List.mem_filter.mp ?_
        rw [hsplit, List.flatten_cons]
        exact List.mem_append_right _ (List.mem_append_left _ hline)
      have hrequests : ∀ n, ∀ b ∈ w.requests ++ List.replicate n
          ((batch.filterMap QueueLine.record).map stripConsentMarker), ∀ record ∈ b,
            ∃ line ∈ w.written, line.consented = true ∧
              line.record.map stripConsentMarker = some record := by
        intro n b hb record hrecord
        rcases List.mem_append.mp hb with hb | hb
        · exact h.requests b hb record hrecord
        · obtain rfl := List.eq_of_mem_replicate hb
          obtain ⟨full, hfull, rfl⟩ := List.mem_map.mp hrecord
          obtain ⟨line, hline, hrow⟩ := List.mem_filterMap.mp hfull
          refine ⟨line, hbefore.order.subset (hbatch line hline).1, (hbatch line hline).2, ?_⟩
          rw [hrow, Option.map_some]
      have hsplit' : read.filter QueueLine.consented = (done ++ batch) ++ batches.flatten := by
        rw [hsplit, List.flatten_cons, List.append_assoc]
      have hlength : (done ++ batch).length = done.length + batch.length := List.length_append
      simp only [SenderWorld.act, hstage]
      split
      · have hacc : ∀ tag ∈ w.accepted, tag ∈ w.accepted ++ batch.map (·.tag) := fun tag htag =>
          List.mem_append_left _ htag
        refine h.goOn rfl rfl rfl rfl hacc (fun _ ht => ht) (fun tag htag => ?_) (hrequests _)
          h.results ⟨⟨hbefore.order, hbefore.marked⟩, hsplit', ?_, fun line hline => ?_, ?_,
            hfailed⟩
        · rcases List.mem_append.mp htag with htag | htag
          · exact h.accepted tag htag
          · obtain ⟨line, hline, rfl⟩ := List.mem_map.mp htag
            exact hbefore.marked line (hbatch line hline).1
        · exact hunsent.trans (List.sublist_append_left _ _)
        · rcases List.mem_append.mp hline with hline | hline
          · exact (hdone line hline).imp_right (hacc _)
          · exact .inr (List.mem_append_right _ (List.mem_map_of_mem hline))
        · omega
      · refine h.goOn rfl rfl rfl rfl (fun _ ht => ht) (fun _ ht => ht) h.accepted (hrequests _)
          h.results ⟨⟨hbefore.order, hbefore.marked⟩, hsplit', hunsent.append (.refl _),
            fun line hline => ?_, ?_, ?_⟩
        · rcases List.mem_append.mp hline with hline | hline
          · exact (hdone line hline).imp_left (List.mem_append_left _)
          · exact .inl (List.mem_append_right _ hline)
        · omega
        · rw [List.length_append, hfailed]

theorem SenderInv.rewriting {config : SenderConfig} {w : SenderWorld A} (h : SenderInv w)
    {read remaining : List QueueLine} {result : SendResult}
    (hstage : w.stage = .rewriting read remaining result) (hqueue : w.queue = read)
    (meets : SendMeets) : SenderInv (w.act config meets) := by
  have hholds := h.stage
  rw [hstage] at hholds
  obtain ⟨hbefore, hremaining, hread, hcount, hleft⟩ := hholds
  simp only [SenderWorld.act, hstage]
  split
  · have hpublished : SenderWorld.queue
        { w with
            files := w.files.publish () remaining
            stage := .idle
            results := w.results ++ [result] } = remaining := by
      simp [SenderWorld.queue, Files.read, Files.publish]
    refine ⟨by simp [Files.publish], ?_, h.tags, h.old, fun line hline => ?_, h.accepted, h.stamps,
      h.writers, h.requests, fun r hr => ?_, trivial⟩
    · rw [hpublished]
      exact hremaining.trans (List.filter_sublist.trans hbefore.order)
    · rw [hpublished]
      rcases h.kept line hline with hline | hline
      · rw [hqueue] at hline
        cases hconsented : line.consented with
        | true => exact (hread line hline hconsented).imp_right fun hacc => .inl ⟨rfl, hacc⟩
        | false => exact .inr (.inr ⟨rfl, hbefore.marked line hline⟩)
      · exact .inr hline
    · rcases List.mem_append.mp hr with hr | hr
      · exact h.results r hr
      · obtain rfl := List.mem_singleton.mp hr
        exact ⟨hcount, hleft⟩
  · exact h.setStage trivial

theorem SenderInv.exec {config : SenderConfig} {w : SenderWorld A} (h : SenderInv w)
    {deed : SenderDeed A} (hregular : RegularSender w deed) : SenderInv (w.exec config deed) := by
  cases deed with
  | openQueue a record consented => exact h.openQueue a record consented
  | write a => exact h.write hregular
  | send meets => exact h.send meets
  | act meets =>
      cases hstage : w.stage with
      | idle =>
          simp only [SenderWorld.exec, SenderWorld.act, hstage]
          exact h
      | reading => exact h.reading hstage meets
      | sending read done unsent batches sent failed => exact h.sending hstage meets
      | rewriting read remaining result =>
          exact h.rewriting hstage (hregular read remaining result hstage) meets
  | stop => exact h.setStage trivial

/-! ## Runs -/

/-- One step that meets the condition. -/
def RegularSenderStep (config : SenderConfig) (w : SenderWorld A) (deed : SenderDeed A)
    (w' : SenderWorld A) : Prop :=
  w' = w.exec config deed ∧ RegularSender w deed

end

/-! ### A record appended while the batch is sent -/

def sampleSender : SenderConfig := ⟨["https://api.example.com"], 100, 1, true⟩

def consentedRow : Loaded Json := .value (.obj [("event", .str "a"), (consentField, .bool true)])

def senderRun (deeds : List (SenderDeed Nat)) : SenderWorld Nat :=
  deeds.foldl (SenderWorld.exec sampleSender) (SenderWorld.start [consentedRow])

def SendStage.rewrites : SendStage → Bool
  | .rewriting _ _ _ => true
  | _ => false

/-- One batch is read and sent. -/
def sendDeeds : List (SenderDeed Nat) := [.send {}, .act {}, .act {}]

end TrwMcp.Telemetry
