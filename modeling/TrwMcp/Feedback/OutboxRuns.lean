import TrwMcp.Feedback.Outbox
import TrwMcp.Lib.Exec

/-!
# One copy of a record

A record has one file in the outbox, and a claim has one owner. So a fresh claim excludes another
one, and once the submission is written the one copy left carries it, or is about to be deleted by
the sender that wrote it. The condition on a run is that this sender does not stop in between, and
that a release takes away no claim that was renewed after it was judged, or is being settled.
-/

set_option linter.unusedSectionVars false

namespace TrwMcp.Feedback

open Lib

/-! ## Files -/

theorem lookup_unlink (folder : Folder) (name m : OutboxName) :
    Dict.lookup (folder.unlink name) m = if m = name then none else Dict.lookup folder m := by
  induction folder with
  | nil => simp [Folder.unlink]
  | cons head rest ih =>
      obtain ⟨n, entry⟩ := head
      unfold Folder.unlink at ih ⊢
      by_cases hn : n = name
      · subst hn
        rw [List.filter_cons_of_neg (by simp), ih, Dict.lookup_cons]
        by_cases hm : m = n
        · simp [hm]
        · simp [hm, Ne.symm hm]
      · rw [List.filter_cons_of_pos (by simpa using hn), Dict.lookup_cons, Dict.lookup_cons, ih]
        by_cases hm : m = name
        · subst hm
          simp [hn]
        · simp [hm]

theorem rename_some {folder folder' : Folder} {name name' : OutboxName}
    (h : folder.rename name name' = some folder') :
    ∃ entry, Dict.lookup folder name = some entry ∧ ∀ m, Dict.lookup folder' m =
      if m = name' then some entry else if m = name then none else Dict.lookup folder m := by
  obtain ⟨entry, hentry, rfl⟩ := Option.map_eq_some_iff.mp h
  refine ⟨entry, hentry, fun m => ?_⟩
  rw [Dict.lookup_set, lookup_unlink]

/-- What the files say: a record has one of them in the outbox, and was enqueued. -/
structure FilesHold (find : OutboxName → Option Entry) (next : Nat) (enqueued : List String) :
    Prop where
  single : ∀ n n' id, n.stem = some id → n'.stem = some id → (find n).isSome = true →
    (find n').isSome = true → n = n'
  drawn : ∀ id nonce, (find (.claimed id nonce)).isSome = true → nonce < next
  known : ∀ n id, n.stem = some id → (find n).isSome = true → id ∈ enqueued

theorem FilesHold.keep {find find' : OutboxName → Option Entry} {next next' : Nat}
    {enqueued : List String} (h : FilesHold find next enqueued) (hnext : next ≤ next')
    (hfind : ∀ n id, n.stem = some id → (find' n).isSome = true → (find n).isSome = true) :
    FilesHold find' next' enqueued :=
  ⟨fun n n' id hn hn' hf hf' => h.single n n' id hn hn' (hfind n id hn hf) (hfind n' id hn' hf'),
    fun id nonce hf => lt_of_lt_of_le (h.drawn id nonce (hfind _ id rfl hf)) hnext,
    fun n id hn hf => h.known n id hn (hfind n id hn hf)⟩

theorem FilesHold.rename {find find' : OutboxName → Option Entry} {next next' : Nat}
    {enqueued : List String} (h : FilesHold find next enqueued) {name name' : OutboxName}
    {id : String} {entry : Entry} (hname : name.stem = some id) (hname' : name'.stem = some id)
    (hentry : find name = some entry) (hnext : next ≤ next')
    (hdrawn : ∀ nonce, name' = .claimed id nonce → nonce < next')
    (hfind : ∀ m, find' m = if m = name' then some entry else if m = name then none else find m) :
    FilesHold find' next' enqueued := by
  have hold : ∀ n, (find' n).isSome = true → n = name' ∨ (n ≠ name ∧ (find n).isSome = true) := by
    intro n hn
    rw [hfind] at hn
    split at hn
    · next heq => exact .inl heq
    · split at hn
      · cases hn
      · next hne => exact .inr ⟨hne, hn⟩
  have hat : (find name).isSome = true := by rw [hentry]; rfl
  refine ⟨fun n n' i hn hn' hf hf' => ?_, fun i nonce hf => ?_, fun n i hn hf => ?_⟩
  · rcases hold n hf with rfl | ⟨hne, hf⟩ <;> rcases hold n' hf' with rfl | ⟨hne', hf'⟩
    · rfl
    · obtain rfl := Option.some.inj (hname'.symm.trans hn)
      exact absurd (h.single n' name _ hn' hname hf' hat) hne'
    · obtain rfl := Option.some.inj (hname'.symm.trans hn')
      exact absurd (h.single n name _ hn hname hf hat) hne
    · exact h.single n n' i hn hn' hf hf'
  · rcases hold _ hf with heq | ⟨-, hf⟩
    · obtain rfl : i = id := by
        rw [← heq] at hname'
        exact Option.some.inj hname'
      exact hdrawn nonce heq.symm
    · exact lt_of_lt_of_le (h.drawn i nonce hf) hnext
  · rcases hold n hf with rfl | ⟨-, hf⟩
    · obtain rfl := Option.some.inj (hname'.symm.trans hn)
      exact h.known name _ hname hat
    · exact h.known n i hn hf

/-! ## The invariant -/

/-- The claim a sender works on. -/
def SenderStage.claim : SenderStage → Option (String × Nat)
  | .renamed id nonce | .stamped id nonce _ | .holding id nonce _ | .returning id nonce
  | .settling id nonce _ _ | .recorded id nonce | .unrecorded id nonce _ | .dropping id nonce =>
      some (id, nonce)
  | .pruning _ | .releasing _ _ | .judged _ _ _ _ => none

/-- The record of this claim is being settled, and its file is still to be written or deleted. -/
def SenderStage.settles (id : String) (nonce : Nat) : SenderStage → Bool
  | .settling i k _ _ | .recorded i k | .unrecorded i k _ | .dropping i k => i = id && k = nonce
  | _ => false

section

variable {A : Type} [DecidableEq A]

/-- The record is in `sent`, or was pruned from it. -/
def OutboxWorld.Done (w : OutboxWorld A) (id : String) : Prop :=
  (w.find (.sent id)).isSome = true ∨ id ∈ w.pruned

/-- What a sender at this stage relies on. -/
def StageHolds (w : OutboxWorld A) : SenderStage → Prop
  | .stamped id nonce since => ∀ entry, w.find (.claimed id nonce) = some entry →
      entry.mtime = since
  | .holding id nonce since =>
      (∀ entry, w.find (.claimed id nonce) = some entry →
        entry.mtime = since ∧ entry.report.submissionId = none) ∧
      ((w.find (.claimed id nonce)).isSome = true ∨ since + staleClaim < w.now)
  | .settling id nonce _ _ => (w.find (.claimed id nonce)).isSome = true ∧ id ∉ w.delivered
  | .recorded id nonce => (w.find (.claimed id nonce)).isSome = true ∧ w.Done id
  | .unrecorded id nonce report => (w.find (.claimed id nonce)).isSome = true ∧
      id ∉ w.delivered ∧ report.submissionId.isSome = true
  | .releasing cutoff _ | .judged cutoff _ _ _ => cutoff ≤ w.now - staleClaim
  | .renamed _ _ | .returning _ _ | .dropping _ _ | .pruning _ => True

structure OutboxInv (w : OutboxWorld A) : Prop where
  files : FilesHold w.find w.next w.enqueued
  owned : ∀ a stage id nonce, w.stages a = some stage → stage.claim = some (id, nonce) →
    nonce < w.next
  alone : ∀ a b stage stage' id id' nonce, w.stages a = some stage → w.stages b = some stage' →
    stage.claim = some (id, nonce) → stage'.claim = some (id', nonce) → a = b
  stages : ∀ a stage, w.stages a = some stage → StageHolds w stage
  delivered : ∀ id ∈ w.delivered, ∀ n entry, n.stem = some id → w.find n = some entry →
    entry.report.submissionId.isSome = true ∨
      ∃ a nonce, w.stages a = some (.recorded id nonce) ∧ n = .claimed id nonce
  within : ∀ id ∈ w.delivered, id ∈ w.enqueued
  accounted : ∀ id ∈ w.enqueued, (∃ n, n.stem = some id ∧ (w.find n).isSome = true) ∨
    w.Done id ∨ id ∈ w.dropped
  resent : w.resent = []

/-- No sender stops between the copy in `sent` and the deletion of its claim, and no release takes
away a claim that was renewed or is being settled. -/
def RegularOutbox (w : OutboxWorld A) : OutboxDeed A → Prop
  | .stop a => ∀ id nonce, w.stages a ≠ some (.recorded id nonce)
  | .act a _ => ∀ cutoff id nonce todo, w.stages a = some (.judged cutoff id nonce todo) →
      (∀ entry, w.find (.claimed id nonce) = some entry → entry.mtime < cutoff) ∧
        ∀ b stage, w.stages b = some stage → stage.settles id nonce = false
  | _ => True

/-- What another sender relies on is left, when its claim is and what was delivered is not its
record. -/
theorem StageHolds.frame {w v : OutboxWorld A} {stage : SenderStage} (h : StageHolds w stage)
    (hnow : w.now ≤ v.now)
    (hfind : ∀ id nonce, stage.claim = some (id, nonce) →
      v.find (.claimed id nonce) = w.find (.claimed id nonce) ∧
        ((w.find (.claimed id nonce)).isSome = true → id ∈ v.delivered → id ∈ w.delivered))
    (hdone : ∀ id, w.Done id → v.Done id) : StageHolds v stage := by
  cases stage with
  | renamed id nonce => trivial
  | stamped id nonce since =>
      intro entry hentry
      rw [(hfind id nonce rfl).1] at hentry
      exact h entry hentry
  | holding id nonce since =>
      have hf := (hfind id nonce rfl).1
      refine ⟨fun entry hentry => h.1 entry (hf ▸ hentry), ?_⟩
      rw [hf]
      exact h.2.imp_right fun hstale => lt_of_lt_of_le hstale hnow
  | returning id nonce => trivial
  | settling id nonce report outcome =>
      obtain ⟨hf, hdelivered⟩ := hfind id nonce rfl
      exact ⟨hf ▸ h.1, fun hmem => h.2 (hdelivered h.1 hmem)⟩
  | recorded id nonce => exact ⟨(hfind id nonce rfl).1 ▸ h.1, hdone id h.2⟩
  | unrecorded id nonce report =>
      obtain ⟨hf, hdelivered⟩ := hfind id nonce rfl
      exact ⟨hf ▸ h.1, fun hmem => h.2.1 (hdelivered h.1 hmem), h.2.2⟩
  | dropping id nonce => trivial
  | pruning todo => trivial
  | releasing cutoff todo => exact le_trans h (Nat.sub_le_sub_right hnow _)
  | judged cutoff id nonce todo => exact le_trans h (Nat.sub_le_sub_right hnow _)

theorem OutboxInv.step {w v : OutboxWorld A} (h : OutboxInv w) {a : A} {stage : Option SenderStage}
    (hstages : v.stages = Function.update w.stages a stage)
    (hnext : w.next ≤ v.next) (hfiles : FilesHold v.find v.next v.enqueued)
    (hclaim : ∀ s id nonce, stage = some s → s.claim = some (id, nonce) →
      (∃ s₀, w.stages a = some s₀ ∧ s₀.claim = some (id, nonce)) ∨
        (nonce = w.next ∧ w.next < v.next))
    (hothers : ∀ b, b ≠ a → ∀ s, w.stages b = some s → StageHolds v s)
    (hown : ∀ s, stage = some s → StageHolds v s)
    (hdelivered : ∀ id ∈ v.delivered, ∀ n entry, n.stem = some id → v.find n = some entry →
      entry.report.submissionId.isSome = true ∨
        ∃ b nonce, v.stages b = some (.recorded id nonce) ∧ n = .claimed id nonce)
    (hwithin : ∀ id ∈ v.delivered, id ∈ v.enqueued)
    (haccounted : ∀ id ∈ v.enqueued, (∃ n, n.stem = some id ∧ (v.find n).isSome = true) ∨
      v.Done id ∨ id ∈ v.dropped) (hresent : v.resent = []) : OutboxInv v := by
  have hcases : ∀ b s, v.stages b = some s →
      (b = a ∧ stage = some s) ∨ (b ≠ a ∧ w.stages b = some s) := by
    intro b s hs
    rw [hstages, Function.update_apply] at hs
    split at hs
    · next heq => exact .inl ⟨heq, hs⟩
    · next hne => exact .inr ⟨hne, hs⟩
  have hnone : ∀ b s s' id id' nonce, b ≠ a → w.stages b = some s → stage = some s' →
      s.claim = some (id, nonce) → s'.claim = some (id', nonce) → False := by
    intro b s s' id id' nonce hne hs hs' hc hc'
    rcases hclaim s' id' nonce hs' hc' with ⟨s₀, hs₀, hc₀⟩ | ⟨rfl, -⟩
    · exact hne (h.alone b a s s₀ id id' nonce hs hs₀ hc hc₀)
    · exact absurd (h.owned b s id _ hs hc) (lt_irrefl _)
  refine ⟨hfiles, fun b s id nonce hs hc => ?_, fun b b' s s' id id' nonce hs hs' hc hc' => ?_,
    fun b s hs => ?_, hdelivered, hwithin, haccounted, hresent⟩
  · rcases hcases b s hs with ⟨-, hstage⟩ | ⟨-, hs⟩
    · rcases hclaim s id nonce hstage hc with ⟨s₀, hs₀, hc₀⟩ | ⟨rfl, hlt⟩
      · exact lt_of_lt_of_le (h.owned a s₀ id nonce hs₀ hc₀) hnext
      · exact hlt
    · exact lt_of_lt_of_le (h.owned b s id nonce hs hc) hnext
  · rcases hcases b s hs with ⟨rfl, hstage⟩ | ⟨hne, hs⟩ <;>
      rcases hcases b' s' hs' with ⟨rfl, hstage'⟩ | ⟨hne', hs'⟩
    · rfl
    · exact (hnone b' s' s id' id nonce hne' hs' hstage hc' hc).elim
    · exact (hnone b s s' id id' nonce hne hs hstage' hc hc').elim
    · exact h.alone b b' s s' id id' nonce hs hs' hc hc'
  · rcases hcases b s hs with ⟨-, hstage⟩ | ⟨hne, hs⟩
    · exact hown s hstage
    · exact hothers b hne s hs

/-- A step of one sender that leaves the files and the lists; it is not between the copy in `sent`
and the deletion of its claim. -/
theorem OutboxInv.goOn {w v : OutboxWorld A} (h : OutboxInv w) {a : A} {stage : Option SenderStage}
    (hrecorded : ∀ id nonce, w.stages a ≠ some (.recorded id nonce))
    (hstages : v.stages = Function.update w.stages a stage) (hfolder : v.folder = w.folder)
    (hnow : v.now = w.now) (hnext : w.next ≤ v.next) (henqueued : v.enqueued = w.enqueued)
    (hdelivered : v.delivered = w.delivered) (hpruned : v.pruned = w.pruned)
    (hdropped : v.dropped = w.dropped) (hresent : v.resent = [])
    (hclaim : ∀ s id nonce, stage = some s → s.claim = some (id, nonce) →
      ∃ s₀, w.stages a = some s₀ ∧ s₀.claim = some (id, nonce))
    (hown : ∀ s, stage = some s → StageHolds v s) : OutboxInv v := by
  have hfind : v.find = w.find := by
    funext n
    rw [OutboxWorld.find, OutboxWorld.find, hfolder]
  have hdone : ∀ id, v.Done id ↔ w.Done id := fun id => by
    rw [OutboxWorld.Done, OutboxWorld.Done, hfind, hpruned]
  refine h.step hstages hnext ?_ (fun s id nonce hs hc => .inl (hclaim s id nonce hs hc))
    (fun b _ s hs => (h.stages b s hs).frame hnow.ge
      (fun id nonce _ => ⟨by rw [hfind], fun _ hmem => hdelivered ▸ hmem⟩)
      fun id => (hdone id).mpr) hown ?_ ?_ ?_ hresent
  · rw [hfind, henqueued]
    exact h.files.keep hnext fun _ _ _ hf => hf
  · rw [hdelivered, hfind]
    intro id hid n entry hn hentry
    refine (h.delivered id hid n entry hn hentry).imp_right ?_
    rintro ⟨b, nonce, hb, rfl⟩
    refine ⟨b, nonce, ?_, rfl⟩
    rw [hstages, Function.update_of_ne]
    · exact hb
    · rintro rfl
      exact hrecorded id nonce hb
  · rw [hdelivered, henqueued]
    exact h.within
  · rw [henqueued, hfind, hdropped]
    intro id hid
    exact (h.accounted id hid).imp_right fun hrest => hrest.imp_left (hdone id).mpr

theorem OutboxInv.setStage {w : OutboxWorld A} (h : OutboxInv w) {a : A}
    {stage : Option SenderStage} (hrecorded : ∀ id nonce, w.stages a ≠ some (.recorded id nonce))
    (hclaim : ∀ s id nonce, stage = some s → s.claim = some (id, nonce) →
      ∃ s₀, w.stages a = some s₀ ∧ s₀.claim = some (id, nonce))
    (hown : ∀ s, stage = some s → StageHolds w s) : OutboxInv (w.setStage a stage) := by
  refine h.goOn hrecorded rfl rfl rfl le_rfl rfl rfl rfl rfl h.resent hclaim fun s hs => ?_
  exact (hown s hs).frame le_rfl (fun _ _ _ => ⟨rfl, fun _ hmem => hmem⟩) fun _ hd => hd

theorem OutboxInv.finish {w : OutboxWorld A} (h : OutboxInv w) {a : A}
    (hrecorded : ∀ id nonce, w.stages a ≠ some (.recorded id nonce)) :
    OutboxInv (w.setStage a none) :=
  h.setStage hrecorded (fun _ _ _ hs => (nomatch hs)) fun _ hs => (nomatch hs)

theorem OutboxInv.start : OutboxInv ({} : OutboxWorld A) :=
  ⟨⟨fun _ _ _ _ _ hf => (nomatch hf), fun _ _ hf => (nomatch hf), fun _ _ _ hf => (nomatch hf)⟩,
    fun _ _ _ _ hs => (nomatch hs), fun _ _ _ _ _ _ _ hs => (nomatch hs),
    fun _ _ hs => (nomatch hs), fun _ hd => (nomatch hd), fun _ hd => (nomatch hd),
    fun _ hd => (nomatch hd), rfl⟩

theorem OutboxInv.tick {w : OutboxWorld A} (h : OutboxInv w) (seconds : Nat) :
    OutboxInv { w with now := w.now + seconds } :=
  ⟨h.files, h.owned, h.alone, fun a s hs => (h.stages a s hs).frame (Nat.le_add_right _ _)
    (fun _ _ _ => ⟨rfl, fun _ hmem => hmem⟩) fun _ hd => hd, h.delivered, h.within, h.accounted,
    h.resent⟩

/-! ## Steps on the files -/

theorem find_put (w : OutboxWorld A) (name : OutboxName) (report : Report) (m : OutboxName) :
    (w.put name report).find m = if m = name then some ⟨report, w.now⟩ else w.find m :=
  Dict.lookup_set _ _ _ _

theorem OutboxInv.rename {w : OutboxWorld A} (h : OutboxInv w) {a : A}
    {stage : Option SenderStage} {folder : Folder} {name name' : OutboxName} {id : String}
    {next : Nat} (hname : name.stem = some id) (hname' : name'.stem = some id)
    (hrename : w.folder.rename name name' = some folder) (hnext : w.next ≤ next)
    (hdrawn : ∀ nonce, name' = .claimed id nonce → nonce < next)
    (hrecorded : ∀ id nonce, w.stages a ≠ some (.recorded id nonce))
    (hfree : ∀ b nonce, w.stages b = some (.recorded id nonce) → name ≠ .claimed id nonce)
    (hclaim : ∀ s i nonce, stage = some s → s.claim = some (i, nonce) →
      (∃ s₀, w.stages a = some s₀ ∧ s₀.claim = some (i, nonce)) ∨ (nonce = w.next ∧ w.next < next))
    (hothers : ∀ b, b ≠ a → ∀ s i nonce, w.stages b = some s → s.claim = some (i, nonce) →
      OutboxName.claimed i nonce ≠ name' ∧ (OutboxName.claimed i nonce = name →
        StageHolds ({ w with folder, next }.setStage a stage) s))
    (hown : ∀ s, stage = some s → StageHolds ({ w with folder, next }.setStage a stage) s) :
    OutboxInv ({ w with folder, next }.setStage a stage) := by
  obtain ⟨entry, hentry, hfind⟩ := rename_some hrename
  have hfind : ∀ m, ({ w with folder, next }.setStage a stage).find m =
      if m = name' then some entry else if m = name then none else w.find m := hfind
  have hsent : ∀ i, ({ w with folder, next }.setStage a stage).find (.sent i) =
      w.find (.sent i) := by
    intro i
    have hne : ∀ n : OutboxName, n.stem = some id → OutboxName.sent i ≠ n := by
      rintro n hn rfl
      cases hn
    rw [hfind, if_neg (hne _ hname'), if_neg (hne _ hname)]
  have hdone : ∀ i, w.Done i → ({ w with folder, next }.setStage a stage).Done i := by
    intro i hd
    unfold OutboxWorld.Done
    rw [hsent]
    exact hd
  refine h.step rfl hnext (h.files.rename hname hname' hentry hnext hdrawn hfind) hclaim ?_ hown
    ?_ h.within ?_ h.resent
  · intro b hb s hs
    cases hc : s.claim with
    | none =>
        refine (h.stages b s hs).frame le_rfl (fun i nonce hc' => ?_) hdone
        rw [hc] at hc'
        cases hc'
    | some claim =>
        obtain ⟨i, nonce⟩ := claim
        obtain ⟨hne', hat⟩ := hothers b hb s i nonce hs hc
        by_cases heq : OutboxName.claimed i nonce = name
        · exact hat heq
        · refine (h.stages b s hs).frame le_rfl (fun i' nonce' hc' => ⟨?_, fun _ hmem => hmem⟩)
            hdone
          obtain ⟨rfl, rfl⟩ := Prod.mk.inj (Option.some.inj (hc.symm.trans hc'))
          rw [hfind, if_neg hne', if_neg heq]
  · intro i hi n entry' hn hentry'
    have hkeep : ∀ b nonce, w.stages b = some (.recorded i nonce) →
        Function.update w.stages a stage b = some (.recorded i nonce) := by
      intro b nonce hb
      rw [Function.update_of_ne]
      · exact hb
      · rintro rfl
        exact hrecorded i nonce hb
    rw [hfind] at hentry'
    split at hentry'
    · next heq =>
        subst heq
        obtain rfl := Option.some.inj (hname'.symm.trans hn)
        obtain rfl := Option.some.inj hentry'
        rcases h.delivered _ hi name _ hname hentry with hsub | ⟨b, nonce, hb, heq⟩
        · exact .inl hsub
        · exact absurd heq (hfree b nonce hb)
    · split at hentry'
      · cases hentry'
      · refine (h.delivered i hi n entry' hn hentry').imp_right ?_
        rintro ⟨b, nonce, hb, rfl⟩
        exact ⟨b, nonce, hkeep b nonce hb, rfl⟩
  · intro i hi
    rcases h.accounted i hi with ⟨n, hn, hsome⟩ | hd | hd
    · left
      by_cases heq : n = name
      · subst heq
        obtain rfl := Option.some.inj (hname.symm.trans hn)
        exact ⟨name', hname', by rw [hfind, if_pos rfl]; rfl⟩
      · refine ⟨n, hn, ?_⟩
        rw [hfind, if_neg heq]
        split
        · rfl
        · exact hsome
    · exact .inr (.inl (hdone i hd))
    · exact .inr (.inr hd)

theorem OutboxInv.claim {w : OutboxWorld A} (h : OutboxInv w) (a : A) (id : String)
    (works : Bool) : OutboxInv (w.claim a id works) := by
  unfold OutboxWorld.claim
  split
  · exact h
  · next hidle =>
      have hidle : w.stages a = none := by simpa using hidle
      have hskip : OutboxInv { w with next := w.next + 1 } := by
        have hstages : w.stages = Function.update w.stages a none := by
          rw [← hidle, Function.update_eq_self]
        exact h.goOn (by simp [hidle]) hstages rfl rfl (Nat.le_succ _) rfl rfl rfl rfl h.resent
          (fun _ _ _ hs => (nomatch hs)) fun _ hs => (nomatch hs)
      split
      · next folder hrename =>
          split
          · refine h.rename rfl rfl hrename (Nat.le_succ _) ?_ (by simp [hidle])
              (fun _ _ _ heq => by cases heq) ?_ ?_ ?_
            · intro nonce heq
              obtain ⟨-, rfl⟩ := OutboxName.claimed.inj heq
              exact Nat.lt_succ_self _
            · intro s i nonce hs hc
              obtain rfl := Option.some.inj hs
              obtain ⟨-, rfl⟩ := Prod.mk.inj (Option.some.inj hc)
              exact .inr ⟨rfl, Nat.lt_succ_self _⟩
            · intro b _ s i nonce hs hc
              refine ⟨fun heq => ?_, fun heq => by cases heq⟩
              obtain ⟨-, rfl⟩ := OutboxName.claimed.inj heq
              exact absurd (h.owned b s i _ hs hc) (lt_irrefl _)
            · intro s hs
              obtain rfl := Option.some.inj hs
              trivial
          · exact hskip
      · exact hskip

theorem OutboxInv.returning {w : OutboxWorld A} (h : OutboxInv w) {a : A} {id : String}
    {nonce : Nat} (hstage : w.stages a = some (.returning id nonce)) (works : Bool) :
    OutboxInv (w.act a works (.returning id nonce)) := by
  have hrecorded : ∀ i k, w.stages a ≠ some (.recorded i k) := by simp [hstage]
  simp only [OutboxWorld.act]
  split
  · next folder hrename =>
      split
      · refine h.rename rfl rfl hrename le_rfl
          (fun _ heq => by cases heq) hrecorded (fun b k hb heq => ?_)
          (fun _ _ _ hs => (nomatch hs)) (fun b hb s i k hs hc => ⟨nofun, ?_⟩)
          fun _ hs => (nomatch hs)
        · obtain ⟨-, rfl⟩ := OutboxName.claimed.inj heq
          obtain rfl := h.alone b a _ _ id id _ hb hstage rfl rfl
          rw [hb] at hstage
          cases hstage
        · intro heq
          obtain ⟨rfl, rfl⟩ := OutboxName.claimed.inj heq
          exact absurd (h.alone b a s _ _ _ _ hs hstage hc rfl) hb
      · exact h.finish hrecorded
  · exact h.finish hrecorded

theorem OutboxInv.judged {w : OutboxWorld A} (h : OutboxInv w) {a : A} {cutoff : Nat} {id : String}
    {nonce : Nat} {todo : List (String × Nat)}
    (hstage : w.stages a = some (.judged cutoff id nonce todo))
    (hstale : ∀ entry, w.find (.claimed id nonce) = some entry → entry.mtime < cutoff)
    (hunsettled : ∀ b stage, w.stages b = some stage → stage.settles id nonce = false)
    (works : Bool) : OutboxInv (w.act a works (.judged cutoff id nonce todo)) := by
  have hrecorded : ∀ i k, w.stages a ≠ some (.recorded i k) := by simp [hstage]
  have hcutoff : cutoff ≤ w.now - staleClaim := h.stages a _ hstage
  have hnext : OutboxInv (w.setStage a (some (.releasing cutoff todo))) := by
    refine h.setStage hrecorded (fun s i k hs hc => ?_) fun s hs => ?_
    · obtain rfl := Option.some.inj hs
      cases hc
    · obtain rfl := Option.some.inj hs
      exact hcutoff
  simp only [OutboxWorld.act]
  split
  · next folder hrename =>
      split
      · obtain ⟨entry, hentry, hfind⟩ := rename_some hrename
        refine h.rename rfl rfl hrename le_rfl
          (fun _ heq => by cases heq) hrecorded (fun b k hb heq => ?_) (fun s i k hs hc => ?_)
          (fun b hb s i k hs hc => ⟨nofun, fun heq => ?_⟩) fun s hs => ?_
        · obtain ⟨-, rfl⟩ := OutboxName.claimed.inj heq
          have hnot := hunsettled b _ hb
          simp [SenderStage.settles] at hnot
        · obtain rfl := Option.some.inj hs
          cases hc
        · obtain ⟨rfl, rfl⟩ := OutboxName.claimed.inj heq
          have hnot := hunsettled b s hs
          have hholds := h.stages b s hs
          have hgone : ({ w with folder, next := w.next }.setStage a
              (some (.releasing cutoff todo))).find (.claimed i k) = none := by
            refine (hfind _).trans ?_
            rw [if_neg (fun heq => by cases heq), if_pos rfl]
          cases s with
          | renamed i' k' => trivial
          | stamped i' k' since =>
              obtain ⟨rfl, rfl⟩ := Prod.mk.inj (Option.some.inj hc)
              intro entry' hentry'
              rw [hgone] at hentry'
              cases hentry'
          | holding i' k' since =>
              obtain ⟨rfl, rfl⟩ := Prod.mk.inj (Option.some.inj hc)
              refine ⟨fun entry' hentry' => ?_, .inr ?_⟩
              · rw [hgone] at hentry'
                cases hentry'
              · have hmtime := (hholds.1 entry hentry).1
                have hlt := hstale entry hentry
                change since + staleClaim < w.now
                omega
          | returning i' k' => trivial
          | settling i' k' report outcome =>
              obtain ⟨rfl, rfl⟩ := Prod.mk.inj (Option.some.inj hc)
              simp [SenderStage.settles] at hnot
          | recorded i' k' =>
              obtain ⟨rfl, rfl⟩ := Prod.mk.inj (Option.some.inj hc)
              simp [SenderStage.settles] at hnot
          | unrecorded i' k' report =>
              obtain ⟨rfl, rfl⟩ := Prod.mk.inj (Option.some.inj hc)
              simp [SenderStage.settles] at hnot
          | dropping i' k' => trivial
          | pruning todo' => cases hc
          | releasing cutoff' todo' => cases hc
          | judged cutoff' i' k' todo' => cases hc
        · obtain rfl := Option.some.inj hs
          exact hcutoff
      · exact hnext
  · exact hnext

/-- What another sender relies on, when the files change only at the claim of this one and no
record but its own comes to be delivered. -/
theorem OutboxInv.others {w v : OutboxWorld A} (h : OutboxInv w) {a : A} {s₀ : SenderStage}
    {id : String} {nonce : Nat} (hs₀ : w.stages a = some s₀) (hc₀ : s₀.claim = some (id, nonce))
    (hpresent : (∃ i ∈ v.delivered, i ∉ w.delivered) →
      (w.find (.claimed id nonce)).isSome = true)
    (hnow : w.now ≤ v.now)
    (hfind : ∀ i k, (i, k) ≠ (id, nonce) → v.find (.claimed i k) = w.find (.claimed i k))
    (hdelivered : ∀ i ∈ v.delivered, i ∈ w.delivered ∨ i = id)
    (hdone : ∀ i, w.Done i → v.Done i) :
    ∀ b, b ≠ a → ∀ s, w.stages b = some s → StageHolds v s := by
  intro b hb s hs
  refine (h.stages b s hs).frame hnow (fun i k hc => ⟨hfind i k ?_, fun hsome hmem => ?_⟩) hdone
  · rintro heq
    obtain ⟨rfl, rfl⟩ := Prod.mk.inj heq
    exact hb (h.alone b a s s₀ _ _ _ hs hs₀ hc hc₀)
  · by_contra hnew
    have hpresent := hpresent ⟨i, hmem, hnew⟩
    obtain rfl := (hdelivered i hmem).resolve_left hnew
    have heq := h.files.single (.claimed i k) (.claimed i nonce) i rfl rfl hsome hpresent
    obtain ⟨-, rfl⟩ := OutboxName.claimed.inj heq
    exact hb (h.alone b a s s₀ _ _ _ hs hs₀ hc hc₀)

theorem OutboxInv.putClaim {w : OutboxWorld A} (h : OutboxInv w) {a : A} {s₀ s : SenderStage}
    {id : String} {nonce : Nat} {report : Report} {delivered : List String}
    (hs₀ : w.stages a = some s₀) (hc₀ : s₀.claim = some (id, nonce))
    (hrecorded : ∀ i k, w.stages a ≠ some (.recorded i k))
    (hpresent : (w.find (.claimed id nonce)).isSome = true)
    (hdelivered : ∀ i ∈ delivered, i ∈ w.delivered ∨ i = id)
    (hsubmission : id ∈ delivered → report.submissionId.isSome = true)
    (hc : s.claim = some (id, nonce))
    (hown :
      StageHolds ({ w.put (.claimed id nonce) report with delivered }.setStage a (some s)) s) :
    OutboxInv ({ w.put (.claimed id nonce) report with delivered }.setStage a (some s)) := by
  have hfind : ∀ m, ({ w.put (.claimed id nonce) report with delivered }.setStage a (some s)).find
      m = if m = .claimed id nonce then some ⟨report, w.now⟩ else w.find m := find_put w _ report
  have hsome : ∀ n i, n.stem = some i →
      ((({ w.put (.claimed id nonce) report with delivered }.setStage a (some s)).find n).isSome =
        true ↔ (w.find n).isSome = true) := by
    intro n i hn
    rw [hfind]
    split
    · next heq =>
        subst heq
        simp [hpresent]
    · rfl
  have hdone : ∀ i, w.Done i →
      ({ w.put (.claimed id nonce) report with delivered }.setStage a (some s)).Done i := by
    intro i hd
    unfold OutboxWorld.Done
    rw [hfind, if_neg (fun heq => by cases heq)]
    exact hd
  refine h.step rfl le_rfl (h.files.keep le_rfl fun n i hn hf => (hsome n i hn).mp hf)
    (fun s' i k hs' hc' => ?_) ?_ (fun s' hs' => ?_) ?_ ?_ ?_ h.resent
  · obtain rfl := Option.some.inj hs'
    exact .inl ⟨s₀, hs₀, hc₀.trans (hc.symm.trans hc')⟩
  · refine h.others hs₀ hc₀ (fun _ => hpresent) le_rfl (fun i k hne => ?_) hdelivered hdone
    rw [hfind, if_neg]
    rintro heq
    obtain ⟨rfl, rfl⟩ := OutboxName.claimed.inj heq
    exact hne rfl
  · obtain rfl := Option.some.inj hs'
    exact hown
  · intro i hi n entry hn hentry
    rw [hfind] at hentry
    split at hentry
    · next heq =>
        subst heq
        obtain rfl := Option.some.inj hentry
        obtain rfl := Option.some.inj hn
        exact .inl (hsubmission hi)
    · next hne =>
        rcases hdelivered i hi with hi | rfl
        · refine (h.delivered i hi n entry hn hentry).imp_right ?_
          rintro ⟨b, k, hb, rfl⟩
          refine ⟨b, k, ?_, rfl⟩
          change Function.update w.stages a (some s) b = _
          rw [Function.update_of_ne]
          · exact hb
          · rintro rfl
            exact hrecorded i k hb
        · have heq := h.files.single n (.claimed i nonce) i hn rfl (by rw [hentry]; rfl) hpresent
          exact absurd heq hne
  · intro i hi
    rcases hdelivered i hi with hi | rfl
    · exact h.within i hi
    · exact h.files.known _ i rfl hpresent
  · intro i hi
    rcases h.accounted i hi with ⟨n, hn, hf⟩ | hd | hd
    · exact .inl ⟨n, hn, (hsome n i hn).mpr hf⟩
    · exact .inr (.inl (hdone i hd))
    · exact .inr (.inr hd)

theorem OutboxInv.putSent {w : OutboxWorld A} (h : OutboxInv w) {a : A} {s₀ : SenderStage}
    {id : String} {nonce : Nat} (hs₀ : w.stages a = some s₀) (hc₀ : s₀.claim = some (id, nonce))
    (hrecorded : ∀ i k, w.stages a ≠ some (.recorded i k))
    (hpresent : (w.find (.claimed id nonce)).isSome = true) (report : Report) :
    OutboxInv
      ({ w.put (.sent id) report with delivered := w.delivered ++ [id] }.setStage a
        (some (.recorded id nonce))) := by
  generalize hv : ({ w.put (.sent id) report with delivered := w.delivered ++ [id] }.setStage a
    (some (.recorded id nonce))) = v
  have hfind : ∀ m, v.find m = if m = .sent id then some ⟨report, w.now⟩ else w.find m := by
    subst hv
    exact find_put w _ report
  have houtbox : ∀ n i, n.stem = some i → v.find n = w.find n := by
    rintro n i hn
    rw [hfind, if_neg]
    rintro rfl
    cases hn
  have hdone : ∀ i, w.Done i → v.Done i := by
    intro i hd
    subst hv
    refine hd.imp_left fun hf => ?_
    rw [hfind]
    split
    · rfl
    · exact hf
  have hmem : ∀ i ∈ w.delivered ++ [id], i ∈ w.delivered ∨ i = id := fun i hi =>
    (List.mem_append.mp hi).imp_right List.mem_singleton.mp
  have hstages : v.stages = Function.update w.stages a (some (.recorded id nonce)) := by
    subst hv
    rfl
  refine h.step hstages (by subst hv; exact le_rfl) ?_ (fun s' i k hs' hc' => ?_) ?_
    (fun s' hs' => ?_) ?_ ?_ ?_ (by subst hv; exact h.resent)
  · subst hv
    exact h.files.keep le_rfl fun n i hn hf => houtbox n i hn ▸ hf
  · obtain rfl := Option.some.inj hs'
    exact .inl ⟨s₀, hs₀, hc₀.trans hc'⟩
  · subst hv
    exact h.others hs₀ hc₀ (fun _ => hpresent) le_rfl (fun i k _ => houtbox _ i rfl) hmem hdone
  · obtain rfl := Option.some.inj hs'
    refine ⟨?_, .inl ?_⟩
    · rw [houtbox _ id rfl]
      exact hpresent
    · rw [hfind, if_pos rfl]
      rfl
  · intro i hi n entry hn hentry
    rw [houtbox n i hn] at hentry
    have hi : i ∈ w.delivered ++ [id] := by
      subst hv
      exact hi
    rw [hstages]
    rcases hmem i hi with hi | rfl
    · refine (h.delivered i hi n entry hn hentry).imp_right ?_
      rintro ⟨b, k, hb, rfl⟩
      refine ⟨b, k, ?_, rfl⟩
      rw [Function.update_of_ne]
      · exact hb
      · rintro rfl
        exact hrecorded i k hb
    · refine .inr ⟨a, nonce, Function.update_self .., ?_⟩
      exact h.files.single n (.claimed i nonce) i hn rfl (by rw [hentry]; rfl) hpresent
  · subst hv
    intro i hi
    rcases hmem i hi with hi | rfl
    · exact h.within i hi
    · exact h.files.known _ i rfl hpresent
  · intro i hi
    have hi : i ∈ w.enqueued := by
      subst hv
      exact hi
    rcases h.accounted i hi with ⟨n, hn, hf⟩ | hd | hd
    · exact .inl ⟨n, hn, (houtbox n i hn).symm ▸ hf⟩
    · exact .inr (.inl (hdone i hd))
    · subst hv
      exact .inr (.inr hd)

theorem OutboxInv.unlinkClaim {w v : OutboxWorld A} (h : OutboxInv w) {a : A}
    {s₀ : SenderStage} {stage : Option SenderStage} {id : String} {nonce : Nat}
    (hs₀ : w.stages a = some s₀) (hc₀ : s₀.claim = some (id, nonce))
    (hfolder : v.folder = w.folder.unlink (.claimed id nonce))
    (hstages : v.stages = Function.update w.stages a stage) (hnow : v.now = w.now)
    (hnext : v.next = w.next) (henqueued : v.enqueued = w.enqueued)
    (hdelivered : v.delivered = w.delivered) (hpruned : v.pruned = w.pruned)
    (hdropped : ∀ i ∈ w.dropped, i ∈ v.dropped) (hresent : v.resent = w.resent)
    (hrest : w.Done id ∨ id ∈ v.dropped) (hclaim : ∀ s, stage = some s → s.claim = none)
    (hown : ∀ s, stage = some s → StageHolds v s) : OutboxInv v := by
  have hfind : ∀ m, v.find m = if m = .claimed id nonce then none else w.find m := by
    intro m
    rw [OutboxWorld.find, hfolder, lookup_unlink]
    rfl
  have hold : ∀ n, (v.find n).isSome = true → n ≠ .claimed id nonce ∧ v.find n = w.find n := by
    intro n hn
    rw [hfind] at hn ⊢
    split at hn
    · cases hn
    · next hne => exact ⟨hne, if_neg hne⟩
  have hdone : ∀ i, w.Done i → v.Done i := by
    intro i hd
    unfold OutboxWorld.Done
    rw [hfind, if_neg (fun heq => by cases heq), hpruned]
    exact hd
  refine h.step hstages hnext.ge ?_ (fun s i k hs hc => ?_) ?_ hown ?_ ?_ ?_
    (hresent.trans h.resent)
  · rw [henqueued]
    exact h.files.keep hnext.ge fun n i _ hf => (hold n hf).2 ▸ hf
  · rw [hclaim s hs] at hc
    cases hc
  · refine h.others hs₀ hc₀ ?_ hnow.ge (fun i k hne => ?_)
      (fun i hi => .inl (hdelivered ▸ hi)) hdone
    · rintro ⟨i, hi, hnew⟩
      exact absurd (hdelivered ▸ hi) hnew
    · rw [hfind, if_neg]
      rintro heq
      obtain ⟨rfl, rfl⟩ := OutboxName.claimed.inj heq
      exact hne rfl
  · rw [hdelivered]
    intro i hi n entry hn hentry
    obtain ⟨hne, heq⟩ := hold n (by rw [hentry]; rfl)
    refine (h.delivered i hi n entry hn (heq.symm.trans hentry)).imp_right ?_
    rintro ⟨b, k, hb, rfl⟩
    refine ⟨b, k, ?_, rfl⟩
    rw [hstages, Function.update_of_ne]
    · exact hb
    · rintro rfl
      obtain rfl := Option.some.inj (hb.symm.trans hs₀)
      obtain ⟨rfl, rfl⟩ := Prod.mk.inj (Option.some.inj hc₀)
      exact hne rfl
  · rw [hdelivered, henqueued]
    exact h.within
  · rw [henqueued]
    intro i hi
    rcases h.accounted i hi with ⟨n, hn, hf⟩ | hd | hd
    · by_cases heq : n = .claimed id nonce
      · subst heq
        obtain rfl := Option.some.inj hn
        exact .inr (hrest.imp_left (hdone _))
      · exact .inl ⟨n, hn, by rw [hfind, if_neg heq]; exact hf⟩
    · exact .inr (.inl (hdone i hd))
    · exact .inr (.inr (hdropped i hd))

theorem OutboxInv.prune {w : OutboxWorld A} (h : OutboxInv w) {a : A} {id : String}
    {todo : List String} (hstage : w.stages a = some (.pruning (id :: todo))) :
    OutboxInv
      ({ w with folder := w.folder.unlink (.sent id), pruned := w.pruned ++ [id] }.setStage a
        (some (.pruning todo))) := by
  generalize hv : ({ w with
    folder := w.folder.unlink (.sent id)
    pruned := w.pruned ++ [id] }.setStage a (some (.pruning todo))) = v
  have hfind : ∀ m, v.find m = if m = .sent id then none else w.find m := by
    subst hv
    exact lookup_unlink w.folder _
  have houtbox : ∀ n i, n.stem = some i → v.find n = w.find n := by
    rintro n i hn
    rw [hfind, if_neg]
    rintro rfl
    cases hn
  have hdone : ∀ i, w.Done i → v.Done i := by
    intro i hd
    by_cases hi : i = id
    · subst hv
      exact .inr (List.mem_append_right _ (List.mem_singleton.mpr hi))
    · rcases hd with hd | hd
      · left
        rw [hfind, if_neg fun heq => hi (OutboxName.sent.inj heq)]
        exact hd
      · subst hv
        exact .inr (List.mem_append_left _ hd)
  have hrecorded : ∀ i k, w.stages a ≠ some (.recorded i k) := by simp [hstage]
  refine h.step (a := a) (by subst hv; rfl)
    (by subst hv; exact le_rfl) ?_ (fun s i k hs hc => ?_) (fun b _ s hs => ?_) (fun s hs => ?_)
    ?_ (by subst hv; exact h.within) ?_ (by subst hv; exact h.resent)
  · subst hv
    exact h.files.keep le_rfl fun n i hn hf => houtbox n i hn ▸ hf
  · obtain rfl := Option.some.inj hs
    cases hc
  · subst hv
    exact (h.stages b s hs).frame le_rfl
      (fun i k _ => ⟨houtbox _ i rfl, fun _ hmem => hmem⟩) hdone
  · obtain rfl := Option.some.inj hs
    trivial
  · subst hv
    intro i hi n entry hn hentry
    rw [houtbox n i hn] at hentry
    refine (h.delivered i hi n entry hn hentry).imp_right ?_
    rintro ⟨b, k, hb, rfl⟩
    refine ⟨b, k, ?_, rfl⟩
    change Function.update w.stages a _ b = _
    rw [Function.update_of_ne]
    · exact hb
    · rintro rfl
      exact hrecorded i k hb
  · intro i hi
    have hi : i ∈ w.enqueued := by
      subst hv
      exact hi
    rcases h.accounted i hi with ⟨n, hn, hf⟩ | hd | hd
    · exact .inl ⟨n, hn, (houtbox n i hn).symm ▸ hf⟩
    · exact .inr (.inl (hdone i hd))
    · subst hv
      exact .inr (.inr hd)

theorem OutboxInv.enqueue {w : OutboxWorld A} (h : OutboxInv w) (a : A) (id payload : String)
    (works : Bool) : OutboxInv (w.enqueue a id payload works) := by
  unfold OutboxWorld.enqueue
  split
  · exact h
  · next hfresh =>
      simp only [not_or, Bool.not_eq_true, Option.isSome_eq_false_iff, Option.isNone_iff_eq_none]
        at hfresh
      obtain ⟨hidle, hnew⟩ := hfresh
      split
      · generalize hv : ({ w.put (.claimed id w.next) { payload } with
            next := w.next + 1
            enqueued := w.enqueued ++ [id] }.setStage a (some (.holding id w.next w.now))) = v
        have hfind : ∀ m, v.find m = if m = .claimed id w.next then some ⟨{ payload }, w.now⟩
            else w.find m := by
          subst hv
          exact find_put w _ _
        have hold : ∀ n i, n.stem = some i → (v.find n).isSome = true →
            (n = .claimed id w.next ∧ i = id) ∨ (i ≠ id ∧ (w.find n).isSome = true) := by
          intro n i hn hf
          rw [hfind] at hf
          split at hf
          · next heq =>
              subst heq
              exact .inl ⟨rfl, (Option.some.inj hn).symm⟩
          · exact .inr ⟨fun heq => hnew (heq ▸ h.files.known n i hn hf), hf⟩
        have hsent : ∀ i, v.find (.sent i) = w.find (.sent i) := fun i => by
          rw [hfind, if_neg (fun heq => by cases heq)]
        have hdone : ∀ i, w.Done i → v.Done i := by
          intro i hd
          unfold OutboxWorld.Done
          rw [hsent]
          subst hv
          exact hd
        have hothers : ∀ b s i k, w.stages b = some s → s.claim = some (i, k) →
            v.find (.claimed i k) = w.find (.claimed i k) := by
          intro b s i k hs hc
          rw [hfind, if_neg]
          rintro heq
          obtain ⟨-, rfl⟩ := OutboxName.claimed.inj heq
          exact absurd (h.owned b s i _ hs hc) (lt_irrefl _)
        refine h.step (a := a) (by subst hv; rfl)
          (by subst hv; exact Nat.le_succ _) ?_ (fun s i k hs hc => ?_) (fun b _ s hs => ?_)
          (fun s hs => ?_) ?_ ?_ ?_ (by subst hv; exact h.resent)
        · refine ⟨fun n n' i hn hn' hf hf' => ?_, fun i k hf => ?_, fun n i hn hf => ?_⟩
          · rcases hold n i hn hf with ⟨rfl, hi⟩ | ⟨hi, hf⟩ <;>
              rcases hold n' i hn' hf' with ⟨rfl, hi'⟩ | ⟨hi', hf'⟩
            · rfl
            · exact absurd hi hi'
            · exact absurd hi' hi
            · exact h.files.single n n' i hn hn' hf hf'
          · subst hv
            rcases hold _ i rfl hf with ⟨heq, -⟩ | ⟨-, hf⟩
            · obtain ⟨-, rfl⟩ := OutboxName.claimed.inj heq
              exact Nat.lt_succ_self _
            · exact Nat.lt_succ_of_lt (h.files.drawn i k hf)
          · subst hv
            rcases hold n i hn hf with ⟨-, rfl⟩ | ⟨-, hf⟩
            · exact List.mem_append_right _ (List.mem_singleton.mpr rfl)
            · exact List.mem_append_left _ (h.files.known n i hn hf)
        · obtain rfl := Option.some.inj hs
          obtain ⟨-, rfl⟩ := Prod.mk.inj (Option.some.inj hc)
          subst hv
          exact .inr ⟨rfl, Nat.lt_succ_self _⟩
        · refine (h.stages b s hs).frame (by subst hv; exact le_rfl)
            (fun i k hc => ⟨hothers b s i k hs hc, fun _ hmem => ?_⟩) hdone
          subst hv
          exact hmem
        · obtain rfl := Option.some.inj hs
          refine ⟨fun entry hentry => ?_, .inl ?_⟩
          · rw [hfind, if_pos rfl] at hentry
            obtain rfl := Option.some.inj hentry
            exact ⟨rfl, rfl⟩
          · rw [hfind, if_pos rfl]
            rfl
        · intro i hi n entry hn hentry
          have hi : i ∈ w.delivered := by
            subst hv
            exact hi
          rcases hold n i hn (by rw [hentry]; rfl) with ⟨-, rfl⟩ | ⟨hne, hf⟩
          · exact absurd (h.within _ hi) hnew
          · rw [hfind, if_neg] at hentry
            · refine (h.delivered i hi n entry hn hentry).imp_right ?_
              rintro ⟨b, k, hb, rfl⟩
              refine ⟨b, k, ?_, rfl⟩
              subst hv
              change Function.update w.stages a _ b = _
              rw [Function.update_of_ne]
              · exact hb
              · rintro rfl
                rw [hidle] at hb
                cases hb
            · rintro rfl
              exact hne (Option.some.inj hn).symm
        · subst hv
          exact fun i hi => List.mem_append_left _ (h.within i hi)
        · intro i hi
          by_cases heq : i = id
          · subst heq
            exact .inl ⟨.claimed i w.next, rfl, by rw [hfind, if_pos rfl]; rfl⟩
          · have hi : i ∈ w.enqueued := by
              subst hv
              exact (List.mem_append.mp hi).resolve_right fun hi => heq (List.mem_singleton.mp hi)
            rcases h.accounted i hi with ⟨n, hn, hf⟩ | hd | hd
            · refine .inl ⟨n, hn, ?_⟩
              rw [hfind]
              split
              · rfl
              · exact hf
            · exact .inr (.inl (hdone i hd))
            · subst hv
              exact .inr (.inr hd)
      · have hstages : w.stages = Function.update w.stages a none := by
          rw [← hidle, Function.update_eq_self]
        exact h.goOn (by simp [hidle]) hstages rfl rfl (Nat.le_succ _) rfl rfl rfl rfl h.resent
          (fun _ _ _ hs => (nomatch hs)) fun _ hs => (nomatch hs)

/-! ## Steps of a sender -/

theorem OutboxInv.undelivered {w : OutboxWorld A} (h : OutboxInv w) {a : A} {s₀ : SenderStage}
    {id : String} {nonce : Nat} {entry : Entry} (hs₀ : w.stages a = some s₀)
    (hc₀ : s₀.claim = some (id, nonce)) (hrecorded : ∀ i k, w.stages a ≠ some (.recorded i k))
    (hentry : w.find (.claimed id nonce) = some entry)
    (hnone : entry.report.submissionId = none) : id ∉ w.delivered := by
  intro hmem
  rcases h.delivered id hmem _ entry rfl hentry with hsub | ⟨b, k, hb, heq⟩
  · rw [hnone] at hsub
    cases hsub
  · obtain ⟨-, rfl⟩ := OutboxName.claimed.inj heq
    obtain rfl := h.alone b a _ s₀ id id _ hb hs₀ rfl hc₀
    exact hrecorded id _ hb

theorem OutboxInv.settle {w : OutboxWorld A} (h : OutboxInv w) (a : A) (outcome : SendOutcome)
    (reads : Bool) : OutboxInv (w.settle a outcome reads) := by
  unfold OutboxWorld.settle
  split
  · next id nonce since hstage =>
      have hrecorded : ∀ i k, w.stages a ≠ some (.recorded i k) := by simp [hstage]
      split
      · next entry hentry =>
          split
          · refine h.setStage hrecorded (fun s i k hs hc => ?_) fun s hs => ?_
            · obtain rfl := Option.some.inj hs
              exact ⟨_, hstage, hc⟩
            · obtain rfl := Option.some.inj hs
              refine ⟨by rw [hentry]; rfl, ?_⟩
              exact h.undelivered hstage rfl hrecorded hentry
                ((h.stages a _ hstage).1 entry hentry).2
          · exact h.finish hrecorded
      · exact h.finish hrecorded
  · exact h

theorem OutboxInv.claiming {w : OutboxWorld A} (h : OutboxInv w) {a : A} {id : String}
    {nonce : Nat} (hstage : w.stages a = some (.renamed id nonce)) (works : Bool) :
    OutboxInv (w.act a works (.renamed id nonce)) := by
  have hrecorded : ∀ i k, w.stages a ≠ some (.recorded i k) := by simp [hstage]
  simp only [OutboxWorld.act]
  split
  · next entry hentry =>
      split
      · refine h.putClaim hstage rfl hrecorded
          (by rw [hentry]; rfl) (fun i hi => .inl hi) (fun hi => ?_) rfl fun entry' hentry' => ?_
        · by_contra hnone
          exact h.undelivered hstage rfl hrecorded hentry (by simpa using hnone) hi
        · have hput := find_put w (.claimed id nonce) entry.report (.claimed id nonce)
          have hfound := hput.symm.trans hentry'
          rw [if_pos rfl] at hfound
          obtain rfl := Option.some.inj hfound
          rfl
      · exact h.finish hrecorded
  · exact h.finish hrecorded

theorem OutboxInv.reading {w : OutboxWorld A} (h : OutboxInv w) {a : A} {id : String}
    {nonce since : Nat} (hstage : w.stages a = some (.stamped id nonce since)) (works : Bool) :
    OutboxInv (w.act a works (.stamped id nonce since)) := by
  have hrecorded : ∀ i k, w.stages a ≠ some (.recorded i k) := by simp [hstage]
  simp only [OutboxWorld.act]
  split
  · next entry hentry =>
      split
      · exact h.finish hrecorded
      · split
        · refine h.setStage hrecorded (fun s i k hs hc => ?_) fun s hs => ?_
          · obtain rfl := Option.some.inj hs
            exact ⟨_, hstage, hc⟩
          · obtain rfl := Option.some.inj hs
            trivial
        · next hnone =>
            have hnone : entry.report.submissionId = none := by simpa using hnone
            have hnew := h.undelivered hstage rfl hrecorded hentry hnone
            rw [if_neg hnew]
            refine h.setStage hrecorded (fun s i k hs hc => ?_) fun s hs => ?_
            · obtain rfl := Option.some.inj hs
              exact ⟨_, hstage, hc⟩
            · obtain rfl := Option.some.inj hs
              refine ⟨fun entry' hentry' => ⟨h.stages a _ hstage entry' hentry', ?_⟩,
                .inl (by rw [hentry]; rfl)⟩
              obtain rfl := Option.some.inj (hentry.symm.trans hentry')
              exact hnone
  · exact h.finish hrecorded

theorem OutboxInv.settling {w : OutboxWorld A} (h : OutboxInv w) {a : A} {id : String}
    {nonce : Nat} {report : Report} {outcome : SendOutcome}
    (hstage : w.stages a = some (.settling id nonce report outcome)) (works : Bool) :
    OutboxInv (w.act a works (.settling id nonce report outcome)) := by
  have hrecorded : ∀ i k, w.stages a ≠ some (.recorded i k) := by simp [hstage]
  obtain ⟨hpresent, hnew⟩ := h.stages a _ hstage
  simp only [OutboxWorld.act]
  split
  · split
    · exact h.putSent hstage rfl hrecorded hpresent _
    · refine h.setStage hrecorded (fun s i k hs hc => ?_) fun s hs => ?_
      · obtain rfl := Option.some.inj hs
        exact ⟨_, hstage, hc⟩
      · obtain rfl := Option.some.inj hs
        exact ⟨hpresent, hnew, rfl⟩
  · split
    · exact h.putClaim hstage rfl hrecorded hpresent
        (fun i hi => .inl hi) (fun hi => absurd hi hnew) rfl trivial
    · exact h.finish hrecorded

theorem OutboxInv.act {w : OutboxWorld A} (h : OutboxInv w) {a : A} {s : SenderStage}
    (hstage : w.stages a = some s) (works : Bool)
    (hregular : RegularOutbox w (.act a works)) : OutboxInv (w.act a works s) := by
  cases s with
  | renamed id nonce => exact h.claiming hstage works
  | stamped id nonce since => exact h.reading hstage works
  | holding id nonce since => exact h
  | returning id nonce => exact h.returning hstage works
  | settling id nonce report outcome => exact h.settling hstage works
  | recorded id nonce =>
      refine h.unlinkClaim hstage rfl rfl rfl rfl rfl rfl rfl rfl
        (fun _ hi => hi) rfl (.inl (h.stages a _ hstage).2) (fun s hs => ?_) fun s hs => ?_
      · obtain rfl := Option.some.inj hs
        rfl
      · obtain rfl := Option.some.inj hs
        trivial
  | unrecorded id nonce report =>
      obtain ⟨hpresent, hnew, hsub⟩ := h.stages a _ hstage
      have hrecorded : ∀ i k, w.stages a ≠ some (.recorded i k) := by simp [hstage]
      simp only [OutboxWorld.act]
      split
      · exact h.putClaim hstage rfl hrecorded hpresent
          (fun i hi => (List.mem_append.mp hi).imp_right List.mem_singleton.mp) (fun _ => hsub) rfl
          trivial
      · refine h.setStage hrecorded (fun s i k hs hc => ?_) fun s hs => ?_
        · obtain rfl := Option.some.inj hs
          exact ⟨_, hstage, hc⟩
        · obtain rfl := Option.some.inj hs
          trivial
  | dropping id nonce =>
      simp only [OutboxWorld.act]
      split
      · exact h.unlinkClaim hstage rfl rfl rfl rfl rfl rfl rfl rfl
          (fun _ hi => List.mem_append_left _ hi) rfl
          (.inr (List.mem_append_right _ (List.mem_singleton.mpr rfl))) (fun _ hs => (nomatch hs))
          fun _ hs => (nomatch hs)
      · exact h.finish (by simp [hstage])
  | pruning todo =>
      cases todo with
      | nil => exact h.finish (by simp [hstage])
      | cons id todo => exact h.prune hstage
  | releasing cutoff todo =>
      have hcutoff : cutoff ≤ w.now - staleClaim := h.stages a _ hstage
      have hgo : ∀ s', s'.claim = none → StageHolds w s' → OutboxInv (w.setStage a (some s')) := by
        intro s' hc hown
        refine h.setStage (by simp [hstage]) (fun s i k hs hc' => ?_) fun s hs => ?_
        · obtain rfl := Option.some.inj hs
          rw [hc] at hc'
          cases hc'
        · obtain rfl := Option.some.inj hs
          exact hown
      cases todo with
      | nil => exact h.finish (by simp [hstage])
      | cons claim todo =>
          obtain ⟨id, nonce⟩ := claim
          simp only [OutboxWorld.act]
          split
          · split
            · exact hgo _ rfl hcutoff
            · exact hgo _ rfl hcutoff
          · exact hgo _ rfl hcutoff
  | judged cutoff id nonce todo =>
      obtain ⟨hstale, hunsettled⟩ := hregular cutoff id nonce todo hstage
      exact h.judged hstage hstale hunsettled works

theorem OutboxInv.exec {w : OutboxWorld A} (h : OutboxInv w) {deed : OutboxDeed A}
    (hregular : RegularOutbox w deed) : OutboxInv (w.exec deed) := by
  cases deed with
  | tick seconds => exact h.tick seconds
  | enqueue a id payload works => exact h.enqueue a id payload works
  | claim a id works => exact h.claim a id works
  | releaseStale a =>
      simp only [OutboxWorld.exec]
      split
      · exact h
      · next hidle =>
          have hidle : w.stages a = none := by simpa using hidle
          refine h.setStage (by simp [hidle]) (fun s i k hs hc => ?_) fun s hs => ?_
          · obtain rfl := Option.some.inj hs
            cases hc
          · obtain rfl := Option.some.inj hs
            exact le_rfl
  | settle a outcome reads => exact h.settle a outcome reads
  | act a works =>
      simp only [OutboxWorld.exec]
      split
      · next s hstage => exact h.act hstage works hregular
      · exact h
  | stop a => exact h.finish hregular

/-! ## Runs -/

/-- One step that meets the condition. -/
def RegularOutboxStep (w : OutboxWorld A) (deed : OutboxDeed A) (w' : OutboxWorld A) : Prop :=
  w' = w.exec deed ∧ RegularOutbox w deed

/-- In a run of regular steps two senders hold one record only when the claim of one of them is
stale; a record that was enqueued is in the outbox, in `sent`, pruned from it, or was dropped after
its delivery when neither copy could be written; and no claim returns a record whose submission was
written. -/
theorem no_report_lost {w : OutboxWorld A} {deeds : List (OutboxDeed A)}
    (h : Run RegularOutboxStep ({} : OutboxWorld A) deeds w) :
    (∀ a b id nonce nonce' since since', a ≠ b → w.stages a = some (.holding id nonce since) →
      w.stages b = some (.holding id nonce' since') →
        since + staleClaim < w.now ∨ since' + staleClaim < w.now) ∧
    (∀ id ∈ w.enqueued, (∃ n, n.stem = some id ∧ (w.find n).isSome = true) ∨
      (w.find (.sent id)).isSome = true ∨ id ∈ w.pruned ∨ id ∈ w.dropped) ∧
    w.resent = [] := by
  have hinv : OutboxInv w := by
    refine h.invariant (I := OutboxInv) .start ?_
    rintro v deed v' hv ⟨rfl, hregular⟩
    exact hv.exec hregular
  refine ⟨fun a b id nonce nonce' since since' hne ha hb => ?_, fun id hid => ?_, hinv.resent⟩
  · by_contra hfresh
    rw [not_or] at hfresh
    have hhere := (hinv.stages a _ ha).2.resolve_right hfresh.1
    have hthere := (hinv.stages b _ hb).2.resolve_right hfresh.2
    have heq := hinv.files.single (.claimed id nonce) (.claimed id nonce') id rfl rfl hhere hthere
    obtain ⟨-, rfl⟩ := OutboxName.claimed.inj heq
    exact hne (hinv.alone a b _ _ id id nonce ha hb rfl rfl)
  · rcases hinv.accounted id hid with hat | (hd | hd) | hd
    · exact .inl hat
    · exact .inr (.inl hd)
    · exact .inr (.inr (.inl hd))
    · exact .inr (.inr (.inr hd))

end

/-! ### A sender that stops, and two writes that fail -/

def sentOutcome : SendOutcome := ⟨true, "sub-1", "", 200⟩

def outboxRun (deeds : List (OutboxDeed Nat)) : OutboxWorld Nat :=
  deeds.foldl OutboxWorld.exec {}

def SenderStage.judges : SenderStage → Bool
  | .judged _ _ _ _ => true
  | _ => false

/-- One report, sent and settled. -/
def sentDeeds : List (OutboxDeed Nat) :=
  [.enqueue 0 "r" "{}" true, .settle 0 sentOutcome true, .act 0 true, .act 0 true]

theorem no_report_lost_sample :
    ((outboxRun sentDeeds).find (.sent "r")).isSome = true ∧ (outboxRun sentDeeds).resent = [] := by
  have hact : ∀ {w : OutboxWorld Nat} {works : Bool},
      (w.stages 0).any SenderStage.judges = false → RegularOutbox w (.act 0 works) := by
    intro w works hw cutoff id nonce todo hstage
    rw [hstage] at hw
    cases hw
  have hrun : Run RegularOutboxStep ({} : OutboxWorld Nat) sentDeeds (outboxRun sentDeeds) :=
    (((Run.nil.snoc ⟨rfl, trivial⟩).snoc ⟨rfl, trivial⟩).snoc ⟨rfl, hact (by decide +kernel)⟩).snoc
      ⟨rfl, hact (by decide +kernel)⟩
  exact ⟨by decide +kernel, (no_report_lost hrun).2.2⟩

/-- The sender stops when the copy in `sent` is written; its claim becomes stale, is released, and
is claimed again. -/
def stoppedDeeds : List (OutboxDeed Nat) :=
  [.enqueue 0 "r" "{}" true, .settle 0 sentOutcome true, .act 0 true, .stop 0, .tick 1000,
    .releaseStale 1, .act 1 true, .act 1 true, .act 1 true, .claim 1 "r" true, .act 1 true,
    .act 1 true]

/-- Neither the copy in `sent` nor the claim can be written. -/
def unwrittenDeeds : List (OutboxDeed Nat) :=
  [.enqueue 0 "r" "{}" true, .settle 0 sentOutcome true, .act 0 false, .act 0 false, .act 0 true]

/-- A delivered report is gone from everywhere without being pruned, by design; and another one is
returned by a claim after its submission was written. -/
theorem report_dropped_or_resent :
    (∃ w : OutboxWorld Nat, Run (fun w deed w' => w' = w.exec deed) {} unwrittenDeeds w ∧
      "r" ∈ w.enqueued ∧ w.folder = [] ∧ w.pruned = []) ∧
    ∃ w : OutboxWorld Nat, Run (fun w deed w' => w' = w.exec deed) {} stoppedDeeds w ∧
      w.stages 1 = some (.holding "r" 1 1000) ∧
      (w.find (.sent "r")).any (fun entry => entry.report.submissionId.isSome) = true := by
  refine ⟨⟨_, .foldl _ _ _, ?_, ?_, ?_⟩, _, .foldl _ _ _, ?_, ?_⟩ <;> decide +kernel

end TrwMcp.Feedback
