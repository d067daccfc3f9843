import TrwMcp.Lib.Exec
import TrwMcp.Telemetry.Rotation

/-!
# No line is lost in a rotation

The log is the sequence of its parts. An append adds to one part and everything else leaves the
parts as they are: a rename gives the active file the next index, and a segment is deleted when its
archive holds the same lines.
-/

set_option linter.unusedSectionVars false

namespace TrwMcp.Telemetry

open Lib

/-! ## The invariant -/

def LogFile.packed : LogFile → Bool
  | .archive _ | .scratch _ => true
  | .active | .segment _ => false

/-- The segment a stage compresses. -/
def LogStage.work {A : Type} : LogStage A → Option Nat
  | .compressing _ _ k _ _ _ => some k
  | _ => none

structure Ordered {A : Type} (chunk : Nat → List (LogLine A)) : Prop where
  within : ∀ k, (chunk k).Pairwise Before
  across : ∀ k k', k < k' → ∀ l ∈ chunk k, ∀ l' ∈ chunk k', Before l l'

/-- The size is that of a beginning of these lines. -/
def Measured {A : Type} (st : LogStat) (lines : List (LogLine A)) : Prop :=
  ∃ seen, seen <+: lines ∧ st.size = sizeOfLines seen

section

variable {A : Type} [DecidableEq A]

/-- What a writer relies on before its line is written. -/
structure Writing (w : LogWorld A) (a : A) (i : Nat) (line : LogLine A) : Prop where
  own : line.writer = a
  made : i < w.files.next
  plain : ∀ n, n.packed = true → w.files.node n ≠ some i
  number : line.number < w.count
  newest : ∀ k, ∀ l ∈ w.chunk k, l.writer = a → l.number < line.number
  lastly : ∀ k k', w.files.node (.segment k) = some i → k < k' → ∀ l ∈ w.chunk k', l.writer ≠ a

/-- What was read of the segment is a beginning of it, and no archive has more. -/
structure Taken (w : LogWorld A) (k : Nat) (st : LogStat) (i : Nat) (original : List (LogLine A)) :
    Prop where
  measured : Measured st original
  grown : original <+: w.files.text i
  covers : ∀ j, w.files.node (.archive k) = some j → w.files.text j <+: original

def HowHolds (w : LogWorld A) (k : Nat) (st : LogStat) (i : Nat) : Compression A → Prop
  | .reading => Measured st (w.files.text i)
  | .opening original => Taken w k st i original
  | .writing original j =>
      Taken w k st i original ∧ w.files.node (.scratch k) = some j ∧ w.files.text j = []
  | .checking original | .replacing original =>
      Taken w k st i original ∧ ∃ j, w.files.node (.scratch k) = some j ∧ w.files.text j = original
  | .comparing original | .unlinking original =>
      Taken w k st i original ∧ ∃ j, w.files.node (.archive k) = some j ∧ w.files.text j = original

def LogStageHolds (w : LogWorld A) (a : A) : LogStage A → Prop
  | .opened i line | .locked i line => Writing w a i line
  | .sealing _ _ _ k => 0 < k ∧ k ≤ w.last + 1
  | .compressing _ _ k st how _ =>
      ∃ i, w.files.node (.segment k) = some i ∧ HowHolds w k st i how
  | _ => True

/-- Every index up to the last one is taken, an archive beside its segment is a beginning of it, one
process works on a segment, and the parts are in order. -/
structure LogInv (w : LogWorld A) : Prop where
  sound : w.files.Sound
  index : ∀ n k, n.index = some k → w.exists n = true → k ≤ w.last
  kept : ∀ k, 0 < k → k ≤ w.last → w.exists (.segment k) = true ∨ w.exists (.archive k) = true
  archived : ∀ k i j, w.files.node (.segment k) = some i → w.files.node (.archive k) = some j →
    w.files.text j <+: w.files.text i
  stages : ∀ a s, w.stages a = some s → LogStageHolds w a s
  alone : ∀ a b s s' k, w.stages a = some s → w.stages b = some s' → s.work = some k →
    s'.work = some k → a = b
  ordered : Ordered w.chunk
  counted : ∀ k, ∀ l ∈ w.chunk k, l.number < w.count
  returned : ∀ l ∈ w.returned, ∃ k, l ∈ w.chunk k
  lost : w.lost = []

/-- A writer writes into a file that still has a name, an index is still free when the log is
renamed to it, no two processes work on one segment, and a segment is deleted as it was compared. -/
def RegularStage (w : LogWorld A) (a : A) : LogStage A → Prop
  | .locked i _ => w.files.Named i
  | .sealing _ _ _ k => w.exists (.segment k) = false ∧ w.exists (.archive k) = false
  | .going _ _ (.segment k :: _) | .going _ _ (.scratch k :: _) =>
      ∀ b s, b ≠ a → w.stages b = some s → s.work ≠ some k
  | .compressing _ _ k st (.unlinking _) _ => w.stat (.segment k) = some st
  | _ => True

def RegularLog (w : LogWorld A) : LogDeed A → Prop
  | .act a _ => ∀ s, w.stages a = some s → RegularStage w a s
  | _ => True

/-! ## Sizes -/

theorem sizeOfLines_append (xs ys : List (LogLine A)) :
    sizeOfLines (xs ++ ys) = sizeOfLines xs + sizeOfLines ys := by
  induction xs with
  | nil => simp [sizeOfLines]
  | cons x xs ih => simp [sizeOfLines, ih, Nat.add_assoc]

theorem eq_of_prefix_of_size {xs ys : List (LogLine A)} (h : xs <+: ys)
    (hsize : sizeOfLines xs = sizeOfLines ys) : xs = ys := by
  obtain ⟨rest, rfl⟩ := h
  rw [sizeOfLines_append] at hsize
  cases rest with
  | nil => exact (List.append_nil xs).symm
  | cons line rest =>
      rw [sizeOfLines] at hsize
      omega

omit [DecidableEq A] in
theorem Measured.mono {st : LogStat} {xs ys : List (LogLine A)} (h : Measured st xs)
    (hbegins : xs <+: ys) : Measured st ys := by
  obtain ⟨seen, hseen, hsize⟩ := h
  exact ⟨seen, hseen.trans hbegins, hsize⟩

/-! ## Names and parts -/

theorem textOf_some {w : LogWorld A} {n : LogFile} {i : Nat} (h : w.files.node n = some i) :
    w.textOf n = w.files.text i := by
  simp [LogWorld.textOf, Files.read, h]

theorem textOf_none {w : LogWorld A} {n : LogFile} (h : w.files.node n = none) :
    w.textOf n = [] := by
  simp [LogWorld.textOf, Files.read, h]

theorem exists_iff {w : LogWorld A} {n : LogFile} :
    w.exists n = true ↔ ∃ i, w.files.node n = some i := Option.isSome_iff_exists

theorem textOf_congr {w v : LogWorld A} {n : LogFile} (hnode : v.files.node n = w.files.node n)
    (htext : ∀ i, w.files.node n = some i → v.files.text i = w.files.text i) :
    v.textOf n = w.textOf n := by
  cases h : w.files.node n with
  | none => rw [textOf_none h, textOf_none (hnode.trans h)]
  | some i => rw [textOf_some h, textOf_some (hnode.trans h), htext i h]

theorem part_congr {w v : LogWorld A} {k : Nat}
    (h : ∀ n, n.index = some k → v.files.node n = w.files.node n ∧
      ∀ i, w.files.node n = some i → v.files.text i = w.files.text i) : v.part k = w.part k := by
  have hsegment := h (.segment k) rfl
  have harchive := h (.archive k) rfl
  unfold LogWorld.part
  rw [LogWorld.exists, LogWorld.exists, hsegment.1, textOf_congr hsegment.1 hsegment.2,
    textOf_congr harchive.1 harchive.2]

theorem chunk_congr {w v : LogWorld A} (hlast : v.last = w.last)
    (hpart : ∀ k ≤ w.last, v.part k = w.part k) (hactive : v.textOf .active = w.textOf .active) :
    v.chunk = w.chunk := by
  funext k
  unfold LogWorld.chunk
  rw [hlast, hactive]
  split
  · next hk => exact hpart k hk
  · rfl

theorem chunk_beyond (w : LogWorld A) {k : Nat} (h : w.last + 1 < k) : w.chunk k = [] := by
  unfold LogWorld.chunk
  rw [if_neg (by omega), if_neg (by omega)]

theorem chunk_active (w : LogWorld A) : w.chunk (w.last + 1) = w.textOf .active := by
  unfold LogWorld.chunk
  rw [if_neg (by omega), if_pos rfl]

theorem chunk_part (w : LogWorld A) {k : Nat} (h : k ≤ w.last) : w.chunk k = w.part k :=
  if_pos h

theorem part_segment {w : LogWorld A} {k i : Nat} (h : w.files.node (.segment k) = some i) :
    w.part k = w.files.text i := by
  rw [LogWorld.part, LogWorld.exists, h, textOf_some h]
  rfl

theorem part_archive {w : LogWorld A} {k : Nat} (h : w.files.node (.segment k) = none) :
    w.part k = w.textOf (.archive k) := by
  rw [LogWorld.part, LogWorld.exists, h]
  rfl

theorem of_mem_chunk {w : LogWorld A} {k : Nat} {l : LogLine A} (h : l ∈ w.chunk k) :
    l ∈ w.textOf .active ∨ ∃ k, l ∈ w.textOf (.segment k) ∨ l ∈ w.textOf (.archive k) := by
  unfold LogWorld.chunk LogWorld.part at h
  split at h
  · split at h
    · exact .inr ⟨k, .inl h⟩
    · exact .inr ⟨k, .inr h⟩
  · split at h
    · exact .inl h
    · cases h

/-! ## What the others rely on -/

theorem Writing.frame {w v : LogWorld A} {a : A} {i : Nat} {line : LogLine A}
    (h : Writing w a i line) (hnext : w.files.next ≤ v.files.next) (hcount : w.count ≤ v.count)
    (hpacked : ∀ n, n.packed = true → v.files.node n = some i →
      ∃ m, m.packed = true ∧ w.files.node m = some i)
    (hchunk : ∀ k, ∀ l ∈ v.chunk k, l.writer = a → l ∈ w.chunk k)
    (hsegment : ∀ k, v.files.node (.segment k) = some i → w.files.node (.segment k) = some i ∨
      ∀ k', k < k' → v.chunk k' = []) : Writing v a i line := by
  refine ⟨h.own, lt_of_lt_of_le h.made hnext, fun n hn hnode => ?_, lt_of_lt_of_le h.number hcount,
    fun k l hl hown => h.newest k l (hchunk k l hl hown) hown, fun k k' hk hlt l hl hown => ?_⟩
  · obtain ⟨m, hm, hnode'⟩ := hpacked n hn hnode
    exact h.plain m hm hnode'
  · rcases hsegment k hk with hk | hk
    · exact h.lastly k k' hk hlt l (hchunk k' l hl hown) hown
    · rw [hk k' hlt] at hl
      cases hl

theorem HowHolds.frame {w v : LogWorld A} {k : Nat} {st : LogStat} {i : Nat} {how : Compression A}
    (h : HowHolds w k st i how) (hgrown : w.files.text i <+: v.files.text i)
    (hpacked : ∀ n, n.packed = true → n.index = some k → v.files.node n = w.files.node n ∧
      ∀ j, w.files.node n = some j → v.files.text j = w.files.text j) : HowHolds v k st i how := by
  have harchive := hpacked (.archive k) rfl rfl
  have hscratch := hpacked (.scratch k) rfl rfl
  have htaken : ∀ original, Taken w k st i original → Taken v k st i original := by
    intro original ht
    refine ⟨ht.measured, ht.grown.trans hgrown, fun j hj => ?_⟩
    rw [harchive.1] at hj
    rw [harchive.2 j hj]
    exact ht.covers j hj
  cases how with
  | reading => exact Measured.mono h hgrown
  | opening original => exact htaken original h
  | writing original j =>
      exact ⟨htaken original h.1, hscratch.1.trans h.2.1, (hscratch.2 j h.2.1).trans h.2.2⟩
  | checking original =>
      obtain ⟨ht, j, hj, htext⟩ := h
      exact ⟨htaken original ht, j, hscratch.1.trans hj, (hscratch.2 j hj).trans htext⟩
  | replacing original =>
      obtain ⟨ht, j, hj, htext⟩ := h
      exact ⟨htaken original ht, j, hscratch.1.trans hj, (hscratch.2 j hj).trans htext⟩
  | comparing original =>
      obtain ⟨ht, j, hj, htext⟩ := h
      exact ⟨htaken original ht, j, harchive.1.trans hj, (harchive.2 j hj).trans htext⟩
  | unlinking original =>
      obtain ⟨ht, j, hj, htext⟩ := h
      exact ⟨htaken original ht, j, harchive.1.trans hj, (harchive.2 j hj).trans htext⟩

theorem LogStageHolds.frame {w v : LogWorld A} {a : A} {s : LogStage A} (h : LogStageHolds w a s)
    (hlast : w.last ≤ v.last)
    (hwriting : ∀ i line, Writing w a i line → Writing v a i line)
    (hwork : ∀ k, s.work = some k →
      (∀ i, w.files.node (.segment k) = some i →
        v.files.node (.segment k) = some i ∧ w.files.text i <+: v.files.text i) ∧
      ∀ n, n.packed = true → n.index = some k → v.files.node n = w.files.node n ∧
        ∀ j, w.files.node n = some j → v.files.text j = w.files.text j) : LogStageHolds v a s := by
  cases s with
  | opened i line => exact hwriting i line h
  | locked i line => exact hwriting i line h
  | sealing limits now i k => exact ⟨h.1, h.2.trans (Nat.succ_le_succ hlast)⟩
  | compressing limits now k st how todo =>
      obtain ⟨i, hi, hhow⟩ := h
      obtain ⟨hsegment, hpacked⟩ := hwork k rfl
      exact ⟨i, (hsegment i hi).1, hhow.frame (hsegment i hi).2 hpacked⟩
  | found | waiting | measuring | counting | touching | listing | going => trivial

theorem LogStageHolds.congr {w v : LogWorld A} {a : A} {s : LogStage A} (h : LogStageHolds w a s)
    (hfiles : v.files = w.files) (hlast : v.last = w.last) (hcount : w.count ≤ v.count) :
    LogStageHolds v a s := by
  have hchunk : v.chunk = w.chunk := by
    refine chunk_congr hlast (fun k _ => part_congr fun n _ => ?_) (textOf_congr ?_ ?_) <;>
      simp [hfiles]
  refine h.frame hlast.ge (fun i line hw => ?_) fun k _ => ⟨fun i hi => ?_, fun n _ _ => ?_⟩
  · refine hw.frame (by rw [hfiles]) hcount (fun n hn hnode => ⟨n, hn, by rwa [← hfiles]⟩)
      (fun k l hl _ => by rwa [← hchunk]) fun k hk => .inl (by rwa [← hfiles])
  · rw [hfiles]
    exact ⟨hi, List.prefix_rfl⟩
  · rw [hfiles]
    exact ⟨rfl, fun _ _ => rfl⟩

/-! ## Steps -/

theorem LogInv.step {w v : LogWorld A} (h : LogInv w) {a : A} {stage : Option (LogStage A)}
    (hstages : v.stages = Function.update w.stages a stage) (hsound : v.files.Sound)
    (hindex : ∀ n k, n.index = some k → v.exists n = true → k ≤ v.last)
    (hkept : ∀ k, 0 < k → k ≤ v.last →
      v.exists (.segment k) = true ∨ v.exists (.archive k) = true)
    (harchived : ∀ k i j, v.files.node (.segment k) = some i →
      v.files.node (.archive k) = some j → v.files.text j <+: v.files.text i)
    (hothers : ∀ b, b ≠ a → ∀ s, w.stages b = some s → LogStageHolds v b s)
    (hown : ∀ s, stage = some s → LogStageHolds v a s)
    (halone : ∀ s k, stage = some s → s.work = some k →
      ∀ b s', b ≠ a → w.stages b = some s' → s'.work ≠ some k)
    (hordered : Ordered v.chunk) (hcounted : ∀ k, ∀ l ∈ v.chunk k, l.number < v.count)
    (hreturned : ∀ l ∈ v.returned, ∃ k, l ∈ v.chunk k) (hlost : v.lost = []) : LogInv v := by
  have hcases : ∀ b s, v.stages b = some s →
      (b = a ∧ stage = some s) ∨ (b ≠ a ∧ w.stages b = some s) := by
    intro b s hb
    rw [hstages, Function.update_apply] at hb
    split at hb
    · next heq => exact .inl ⟨heq, hb⟩
    · next hne => exact .inr ⟨hne, hb⟩
  refine ⟨hsound, hindex, hkept, harchived, fun b s hb => ?_, fun b c s s' k hb hc hs hs' => ?_,
    hordered, hcounted, hreturned, hlost⟩
  · rcases hcases b s hb with ⟨rfl, hs⟩ | ⟨hne, hs⟩
    · exact hown s hs
    · exact hothers b hne s hs
  · rcases hcases b s hb with ⟨rfl, hb⟩ | ⟨hne, hb⟩ <;>
      rcases hcases c s' hc with ⟨rfl, hc⟩ | ⟨hne', hc⟩
    · rfl
    · exact absurd hs' (halone s k hb hs c s' hne' hc)
    · exact absurd hs (halone s' k hc hs' b s hne hb)
    · exact h.alone b c s s' k hb hc hs hs'

theorem LogInv.free {w : LogWorld A} (h : LogInv w) {a : A} {s₀ : LogStage A} {k : Nat}
    (hs₀ : w.stages a = some s₀) (hk : s₀.work = some k) (b : A) (s' : LogStage A) (hne : b ≠ a)
    (hb : w.stages b = some s') : s'.work ≠ some k :=
  fun hw => hne (h.alone b a s' s₀ k hb hs₀ hw hk)

theorem LogInv.goOn {w v : LogWorld A} (h : LogInv w) {a : A} {stage : Option (LogStage A)}
    (hstages : v.stages = Function.update w.stages a stage) (hfiles : v.files = w.files)
    (hlast : v.last = w.last) (hcount : w.count = v.count) (hreturned : v.returned = w.returned)
    (hlost : v.lost = w.lost) (hown : ∀ s, stage = some s → LogStageHolds w a s)
    (halone : ∀ s k, stage = some s → s.work = some k →
      ∀ b s', b ≠ a → w.stages b = some s' → s'.work ≠ some k) : LogInv v := by
  have hchunk : v.chunk = w.chunk := by
    refine chunk_congr hlast (fun k _ => part_congr fun n _ => ?_) (textOf_congr ?_ ?_) <;>
      simp [hfiles]
  have hexists : ∀ n, v.exists n = w.exists n := fun n => by
    rw [LogWorld.exists, LogWorld.exists, hfiles]
  refine h.step hstages (hfiles ▸ h.sound) ?_ ?_ ?_ (fun b _ s hb => ?_) (fun s hs => ?_) halone
    (hchunk ▸ h.ordered) ?_ ?_ (hlost.trans h.lost)
  · intro n k hn hex
    rw [hlast]
    exact h.index n k hn (by rwa [← hexists])
  · intro k hk hle
    rw [hexists, hexists]
    exact h.kept k hk (hlast ▸ hle)
  · rw [hfiles]
    exact h.archived
  · exact (h.stages b s hb).congr hfiles hlast hcount.le
  · exact (hown s hs).congr hfiles hlast hcount.le
  · rw [hchunk, ← hcount]
    exact h.counted
  · rw [hchunk, hreturned]
    exact h.returned

theorem LogInv.leave {w : LogWorld A} (h : LogInv w) (a : A) : LogInv (w.leave a) :=
  h.goOn rfl rfl rfl rfl rfl rfl (fun _ hs => (nomatch hs)) fun _ _ hs => (nomatch hs)

theorem LogInv.goTo {w : LogWorld A} (h : LogInv w) {a : A} {s : LogStage A}
    (hown : LogStageHolds w a s) (hwork : s.work = none) : LogInv (w.setStage a (some s)) := by
  refine h.goOn rfl rfl rfl rfl rfl rfl (fun s' hs => ?_) fun s' k hs hk => ?_
  · exact Option.some.inj hs ▸ hown
  · rw [← Option.some.inj hs, hwork] at hk
    cases hk

theorem LogInv.goWork {w : LogWorld A} (h : LogInv w) {a : A} {s : LogStage A} {k : Nat}
    (hfree : ∀ b s', b ≠ a → w.stages b = some s' → s'.work ≠ some k)
    (hown : LogStageHolds w a s) (hwork : s.work = some k) : LogInv (w.setStage a (some s)) := by
  refine h.goOn rfl rfl rfl rfl rfl rfl (fun s' hs => ?_) fun s' m hs hm => ?_
  · exact Option.some.inj hs ▸ hown
  · rw [← Option.some.inj hs, hwork] at hm
    obtain rfl := Option.some.inj hm
    exact hfree

theorem LogInv.lock {w : LogWorld A} (h : LogInv w) {a : A} {s : LogStage A} {i : Nat}
    (hown : LogStageHolds w a s) (hwork : s.work = none) :
    LogInv ({ w with locks := Function.update w.locks i (some a) }.setStage a (some s)) := by
  refine h.goOn rfl rfl rfl rfl rfl rfl (fun s' hs => ?_) fun s' k hs hk => ?_
  · exact Option.some.inj hs ▸ hown
  · rw [← Option.some.inj hs, hwork] at hk
    cases hk

theorem LogInv.at {w v : LogWorld A} (h : LogInv w) {a : A} {s : LogStage A} {k : Nat}
    (hfree : ∀ b s', b ≠ a → w.stages b = some s' → s'.work ≠ some k)
    (hstages : v.stages = Function.update w.stages a (some s)) (hlast : v.last = w.last)
    (hcount : v.count = w.count) (hreturned : v.returned = w.returned) (hlost : v.lost = [])
    (hnext : w.files.next ≤ v.files.next) (hsound : v.files.Sound)
    (hframe : ∀ n, n.index ≠ some k → v.files.node n = w.files.node n ∧
      ∀ i, w.files.node n = some i → v.files.text i = w.files.text i)
    (hsegment : ∀ i, v.files.node (.segment k) = some i → w.files.node (.segment k) = some i)
    (hpacked : ∀ n i, n.packed = true → v.files.node n = some i →
      (∃ m, m.packed = true ∧ w.files.node m = some i) ∨ w.files.next ≤ i)
    (hindex : k ≤ w.last)
    (hkept : 0 < k → v.exists (.segment k) = true ∨ v.exists (.archive k) = true)
    (harchived : ∀ i j, v.files.node (.segment k) = some i →
      v.files.node (.archive k) = some j → v.files.text j <+: v.files.text i)
    (hpart : v.part k = w.part k) (hown : LogStageHolds v a s)
    (hwork : ∀ m, s.work = some m → m = k) : LogInv v := by
  have hchunk : v.chunk = w.chunk := by
    have hactive := hframe .active nofun
    refine chunk_congr hlast (fun m _ => ?_) (textOf_congr hactive.1 hactive.2)
    by_cases hm : m = k
    · rw [hm, hpart]
    · exact part_congr fun n hn => hframe n (by simpa [hn] using hm)
  have hexists : ∀ n, n.index ≠ some k → v.exists n = w.exists n := fun n hn => by
    rw [LogWorld.exists, LogWorld.exists, (hframe n hn).1]
  refine h.step hstages hsound ?_ ?_ ?_ (fun b hne s' hb => ?_) (fun s' hs => ?_) ?_
    (hchunk ▸ h.ordered) ?_ ?_ hlost
  · intro n m hn hex
    rw [hlast]
    by_cases hm : m = k
    · rwa [hm]
    · exact h.index n m hn (by rwa [← hexists n (by simpa [hn] using hm)])
  · intro m hm hle
    by_cases heq : m = k
    · exact heq ▸ hkept (heq ▸ hm)
    · rw [hexists _ (by simpa [LogFile.index] using heq),
        hexists _ (by simpa [LogFile.index] using heq)]
      exact h.kept m hm (hlast ▸ hle)
  · intro m i j hi hj
    by_cases heq : m = k
    · subst heq
      exact harchived i j hi hj
    · have hs := hframe (.segment m) (by simpa [LogFile.index] using heq)
      have ha := hframe (.archive m) (by simpa [LogFile.index] using heq)
      rw [hs.1] at hi
      rw [ha.1] at hj
      rw [hs.2 i hi, ha.2 j hj]
      exact h.archived m i j hi hj
  · refine (h.stages b s' hb).frame hlast.ge (fun i line hw => ?_) fun m hm => ?_
    · refine hw.frame hnext hcount.ge (fun n hn hnode => ?_) (fun m l hl _ => by rwa [← hchunk])
        fun m hnode => .inl ?_
      · rcases hpacked n i hn hnode with hold | hnew
        · exact hold
        · exact absurd hw.made (Nat.not_lt.mpr hnew)
      · by_cases heq : m = k
        · subst heq
          exact hsegment i hnode
        · rwa [← (hframe (.segment m) (by simpa [LogFile.index] using heq)).1]
    · have hne' : m ≠ k := by
        rintro rfl
        exact hfree b s' hne hb hm
      refine ⟨fun i hi => ?_, fun n _ hn => hframe n (by simpa [hn] using hne')⟩
      have hs := hframe (.segment m) (by simpa [LogFile.index] using hne')
      exact ⟨hs.1.trans hi, by rw [hs.2 i hi]⟩
  · exact Option.some.inj hs ▸ hown
  · intro s' m hs hm
    rw [hwork m (Option.some.inj hs ▸ hm)]
    exact hfree
  · rw [hchunk, hcount]
    exact h.counted
  · rw [hchunk, hreturned]
    exact h.returned

theorem LogInv.scratch {w v : LogWorld A} (h : LogInv w) {a : A} {s : LogStage A} {k : Nat}
    (hfree : ∀ b s', b ≠ a → w.stages b = some s' → s'.work ≠ some k)
    (hstages : v.stages = Function.update w.stages a (some s)) (hlast : v.last = w.last)
    (hcount : v.count = w.count) (hreturned : v.returned = w.returned) (hlost : v.lost = w.lost)
    (hnext : w.files.next ≤ v.files.next) (hsound : v.files.Sound)
    (hframe : ∀ n, n ≠ .scratch k → v.files.node n = w.files.node n ∧
      ∀ i, w.files.node n = some i → v.files.text i = w.files.text i)
    (hscratch : ∀ i, v.files.node (.scratch k) = some i →
      w.files.node (.scratch k) = some i ∨ w.files.next ≤ i)
    (hindex : k ≤ w.last) (hown : LogStageHolds v a s)
    (hwork : ∀ m, s.work = some m → m = k) : LogInv v := by
  have hs := hframe (.segment k) nofun
  have ha := hframe (.archive k) nofun
  refine h.at hfree hstages hlast hcount hreturned (hlost.trans h.lost) hnext hsound
    (fun n hn => hframe n ?_) (fun i hi => hs.1 ▸ hi) (fun n i hn hi => ?_) hindex (fun hk => ?_)
    (fun i j hi hj => ?_) ?_ hown hwork
  · rintro rfl
    exact hn rfl
  · by_cases heq : n = .scratch k
    · subst heq
      rcases hscratch i hi with hold | hnew
      · exact .inl ⟨_, rfl, hold⟩
      · exact .inr hnew
    · exact .inl ⟨n, hn, (hframe n heq).1 ▸ hi⟩
  · rw [LogWorld.exists, LogWorld.exists, hs.1, ha.1]
    exact h.kept k hk hindex
  · rw [hs.1] at hi
    rw [ha.1] at hj
    rw [hs.2 i hi, ha.2 j hj]
    exact h.archived k i j hi hj
  · unfold LogWorld.part
    rw [LogWorld.exists, LogWorld.exists, hs.1, textOf_congr hs.1 hs.2, textOf_congr ha.1 ha.2]

/-! ## Compression -/

theorem LogInv.unlinkScratch {w : LogWorld A} (h : LogInv w) {a : A} {s : LogStage A} {k : Nat}
    (hfree : ∀ b s', b ≠ a → w.stages b = some s' → s'.work ≠ some k)
    (hown : ∀ v : LogWorld A, LogStageHolds v a s) (hwork : s.work = none) :
    LogInv ({ w with files := w.files.unlink (.scratch k) }.setStage a (some s)) := by
  by_cases hscratch : w.exists (.scratch k) = true
  · refine h.scratch hfree rfl rfl rfl rfl rfl (Nat.le_refl _) (h.sound.unlink _) (fun n hn => ?_)
      (fun i hi => ?_) (h.index _ k rfl hscratch) (hown _) fun m hm => ?_
    · exact ⟨Function.update_of_ne hn _ _, fun _ _ => rfl⟩
    · change Function.update w.files.node (.scratch k) none (.scratch k) = some i at hi
      rw [Function.update_self] at hi
      cases hi
    · rw [hwork] at hm
      cases hm
  · have hnone : w.files.node (.scratch k) = none := by
      simpa [LogWorld.exists] using hscratch
    have hfiles : w.files.unlink (.scratch k) = w.files := by
      rw [Files.unlink, ← hnone, Function.update_eq_self]
    rw [hfiles]
    exact h.goTo (hown w) hwork

theorem LogInv.segment {w : LogWorld A} (h : LogInv w) {a : A} {limits : LogLimits} {now k : Nat}
    {st : LogStat} {how : Compression A} {todo : List LogFile}
    (hs : w.stages a = some (.compressing limits now k st how todo)) :
    ∃ i, w.files.node (.segment k) = some i ∧ HowHolds w k st i how ∧ k ≤ w.last := by
  obtain ⟨i, hi, hhow⟩ := h.stages a _ hs
  exact ⟨i, hi, hhow, h.index _ k rfl (exists_iff.mpr ⟨i, hi⟩)⟩

theorem Taken.scratch {w v : LogWorld A} {k : Nat} {st : LogStat} {i : Nat}
    {original : List (LogLine A)} (h : Taken w k st i original)
    (hi : w.files.node (.segment k) = some i)
    (hframe : ∀ n, n ≠ .scratch k → v.files.node n = w.files.node n ∧
      ∀ i, w.files.node n = some i → v.files.text i = w.files.text i) :
    Taken v k st i original := by
  have hs := hframe (.segment k) nofun
  have ha := hframe (.archive k) nofun
  refine ⟨h.measured, hs.2 i hi ▸ h.grown, fun j hj => ?_⟩
  rw [ha.1] at hj
  rw [ha.2 j hj]
  exact h.covers j hj

theorem LogInv.open {w : LogWorld A} (h : LogInv w) {a : A} {limits : LogLimits} {now k : Nat}
    {st : LogStat} {original : List (LogLine A)} {todo : List LogFile}
    (hs : w.stages a = some (.compressing limits now k st (.opening original) todo)) :
    LogInv (w.compress a true limits now k st todo (.opening original)) := by
  obtain ⟨i, hi, htaken, hk⟩ := h.segment hs
  let fs := (w.files.opened (.scratch k)).truncate (w.files.openNode (.scratch k))
  have hat : fs.node (.scratch k) = some (w.files.openNode (.scratch k)) :=
    Files.openNode_named w.files (.scratch k)
  have hframe : ∀ n, n ≠ .scratch k → fs.node n = w.files.node n ∧
      ∀ j, w.files.node n = some j → fs.text j = w.files.text j := by
    intro n hn
    have hnode : fs.node n = w.files.node n := Files.node_opened_ne w.files hn
    refine ⟨hnode, fun j hj => ?_⟩
    have hne : j ≠ w.files.openNode (.scratch k) := by
      rintro rfl
      exact hn ((h.sound.opened _).one _ _ _ (hnode.trans hj) hat)
    exact (Function.update_of_ne hne _ _).trans (Files.text_opened h.sound _ ⟨n, hj⟩)
  refine h.scratch (h.free hs rfl) rfl rfl rfl rfl rfl (Files.next_opened_le _ _)
    ((h.sound.opened _).truncate _) hframe (fun j hj => ?_) hk ⟨i, ?_, ?_, hat, ?_⟩ fun m hm => ?_
  · obtain rfl := Option.some.inj (hat.symm.trans hj)
    rcases Files.openNode_old_or_new w.files (.scratch k) with hold | ⟨-, hnew⟩
    · exact .inl hold
    · exact .inr hnew.ge
  · exact (hframe (.segment k) nofun).1.trans hi
  · exact htaken.scratch hi hframe
  · exact Function.update_self ..
  · exact (Option.some.inj hm).symm

theorem LogInv.write {w : LogWorld A} (h : LogInv w) {a : A} {limits : LogLimits} {now k : Nat}
    {st : LogStat} {original : List (LogLine A)} {j : Nat} {todo : List LogFile}
    (hs : w.stages a = some (.compressing limits now k st (.writing original j) todo)) :
    LogInv (w.compress a true limits now k st todo (.writing original j)) := by
  obtain ⟨i, hi, ⟨htaken, hj, hempty⟩, hk⟩ := h.segment hs
  have hframe : ∀ n, n ≠ .scratch k → (w.files.write j original).node n = w.files.node n ∧
      ∀ m, w.files.node n = some m → (w.files.write j original).text m = w.files.text m := by
    refine fun n hn => ⟨rfl, fun m hm => Files.text_write_ne _ _ ?_⟩
    rintro rfl
    exact hn (h.sound.one _ _ _ hm hj)
  refine h.scratch (h.free hs rfl) rfl rfl rfl rfl rfl (Nat.le_refl _) (h.sound.write _ _) hframe
    (fun m hm => .inl hm) hk ⟨i, hi, htaken.scratch hi hframe, j, hj, ?_⟩ fun m hm => ?_
  · change (w.files.write j original).text j = original
    rw [Files.text_write_self, hempty, List.nil_append]
  · exact (Option.some.inj hm).symm

theorem LogInv.replace {w : LogWorld A} (h : LogInv w) {a : A} {limits : LogLimits} {now k : Nat}
    {st : LogStat} {original : List (LogLine A)} {todo : List LogFile} {works : Bool}
    (hs : w.stages a = some (.compressing limits now k st (.replacing original) todo)) :
    LogInv (w.compress a works limits now k st todo (.replacing original)) := by
  obtain ⟨i, hi, ⟨htaken, j, hj, htext⟩, hk⟩ := h.segment hs
  rw [LogWorld.compress]
  split
  · have hnode : ∀ n, (w.files.rename (.scratch k) (.archive k)).node n =
        if n = .scratch k then none else if n = .archive k then some j else w.files.node n := by
      intro n
      simp only [Files.rename, Function.update_apply, hj]
    have hlost : (w.textOf (.archive k)).filter (· ∉ w.textOf (.scratch k)) = [] := by
      refine List.filter_eq_nil_iff.mpr fun l hl => ?_
      have hmem : l ∈ w.textOf (.scratch k) := by
        rw [textOf_some hj, htext]
        cases ha : w.files.node (.archive k) with
        | none =>
            rw [textOf_none ha] at hl
            cases hl
        | some o =>
            rw [textOf_some ha] at hl
            exact (htaken.covers o ha).mem hl
      simpa using hmem
    have hsegment : (w.files.rename (.scratch k) (.archive k)).node (.segment k) = some i := by
      rw [hnode, if_neg nofun, if_neg nofun, hi]
    have harchive : (w.files.rename (.scratch k) (.archive k)).node (.archive k) = some j := by
      rw [hnode, if_neg nofun, if_pos rfl]
    refine h.at (k := k) (h.free hs rfl) rfl rfl rfl rfl ?_ (Nat.le_refl _) (h.sound.rename _ _)
      (fun n hn => ⟨?_, fun _ _ => rfl⟩) (fun m hm => ?_) (fun n m hn hm => ?_) hk
      (fun _ => .inl (exists_iff.mpr ⟨i, hsegment⟩)) (fun m m' hm hm' => ?_) ?_
      ⟨i, hsegment, ⟨htaken.measured, htaken.grown, fun m hm => ?_⟩, j, harchive, htext⟩
      fun m hm => ?_
    · change w.lost ++ _ = []
      rw [h.lost, hlost]
      rfl
    · refine (hnode n).trans ?_
      rw [if_neg (by rintro rfl; exact hn rfl), if_neg (by rintro rfl; exact hn rfl)]
    · rw [← hsegment.symm.trans hm]
      exact hi
    · refine .inl ?_
      replace hm := (hnode n).symm.trans hm
      split at hm
      · cases hm
      · split at hm
        · exact ⟨.scratch k, rfl, hj.trans hm⟩
        · exact ⟨n, hn, hm⟩
    · obtain rfl := Option.some.inj (hsegment.symm.trans hm)
      obtain rfl := Option.some.inj (harchive.symm.trans hm')
      change w.files.text j <+: w.files.text i
      rw [htext]
      exact htaken.grown
    · refine Eq.trans ?_ (part_segment hi).symm
      exact part_segment hsegment
    · obtain rfl := Option.some.inj (harchive.symm.trans hm)
      change w.files.text j <+: original
      rw [htext]
    · exact (Option.some.inj hm).symm
  · exact h.leave a

theorem LogInv.unlinkSegment {w : LogWorld A} (h : LogInv w) {a : A} {limits : LogLimits}
    {now k : Nat} {st : LogStat} {original : List (LogLine A)} {todo : List LogFile} {works : Bool}
    (hs : w.stages a = some (.compressing limits now k st (.unlinking original) todo))
    (hstat : w.stat (.segment k) = some st) :
    LogInv (w.compress a works limits now k st todo (.unlinking original)) := by
  obtain ⟨i, hi, ⟨htaken, j, hj, htext⟩, hk⟩ := h.segment hs
  -- the size is that of a beginning of what was read, so nothing follows what was read
  have hsame : original = w.files.text i := by
    obtain ⟨seen, hseen, hsize⟩ := htaken.measured
    have hwhole : sizeOfLines (w.files.text i) = st.size := by
      simp only [LogWorld.stat, hi, Option.map_some, Option.some.injEq] at hstat
      rw [← hstat]
    obtain rfl := eq_of_prefix_of_size (hseen.trans htaken.grown) (hsize.symm.trans hwhole.symm)
    exact htaken.grown.eq_of_length_le hseen.length_le
  rw [LogWorld.compress]
  split
  · have hnode : ∀ n, (w.files.unlink (.segment k)).node n =
        if n = .segment k then none else w.files.node n := by
      intro n
      simp only [Files.unlink, Function.update_apply]
    refine h.at (k := k) (h.free hs rfl) rfl rfl rfl rfl h.lost (Nat.le_refl _) (h.sound.unlink _)
      (fun n hn => ⟨?_, fun _ _ => rfl⟩) (fun m hm => ?_) (fun n m hn hm => ?_) hk
      (fun _ => .inr (exists_iff.mpr ⟨j, ?_⟩)) (fun m m' hm _ => ?_) ?_ trivial fun m hm => ?_
    · exact (hnode n).trans (if_neg (by rintro rfl; exact hn rfl))
    · have hgone := (hnode (.segment k)).symm.trans hm
      rw [if_pos rfl] at hgone
      cases hgone
    · refine .inl ⟨n, hn, ?_⟩
      replace hm := (hnode n).symm.trans hm
      split at hm
      · cases hm
      · exact hm
    · exact (hnode _).trans hj
    · have hgone := (hnode (.segment k)).symm.trans hm
      rw [if_pos rfl] at hgone
      cases hgone
    · refine (part_archive ((hnode _).trans (if_pos rfl))).trans ?_
      refine (textOf_some ((hnode (.archive k)).trans hj)).trans ?_
      exact (htext.trans hsame).trans (part_segment hi).symm
    · cases hm
  · exact h.leave a

theorem LogInv.compress {w : LogWorld A} (h : LogInv w) {a : A} {limits : LogLimits}
    {now k : Nat} {st : LogStat} {how : Compression A} {todo : List LogFile} (works : Bool)
    (hs : w.stages a = some (.compressing limits now k st how todo))
    (hregular : RegularStage w a (.compressing limits now k st how todo)) :
    LogInv (w.compress a works limits now k st todo how) := by
  have hcorrupt : LogInv (w.corrupt a limits now k todo) :=
    h.unlinkScratch (h.free hs rfl) (fun _ => trivial) rfl
  obtain ⟨i, hi, hhow, -⟩ := h.segment hs
  cases how with
  | reading =>
      unfold LogWorld.compress
      dsimp only
      split
      · next original hread =>
          have htext : original = w.files.text i := by
            simpa [Files.read, hi] using hread.symm
          subst htext
          exact h.goWork (h.free hs rfl) ⟨i, hi, hhow, List.prefix_rfl,
            fun j hj => h.archived k i j hi hj⟩ rfl
      · exact h.leave a
  | opening original =>
      cases works with
      | true => exact h.open hs
      | false => exact hcorrupt
  | writing original j =>
      cases works with
      | true => exact h.write hs
      | false => exact hcorrupt
  | checking original =>
      unfold LogWorld.compress
      dsimp only
      split
      · split
        · exact h.goWork (h.free hs rfl) ⟨i, hi, hhow⟩ rfl
        · exact hcorrupt
      · exact hcorrupt
  | replacing original => exact h.replace hs
  | comparing original =>
      rw [LogWorld.compress]
      split
      · exact h.goWork (h.free hs rfl) ⟨i, hi, hhow⟩ rfl
      · exact h.goTo trivial rfl
  | unlinking original => exact h.unlinkSegment hs hregular

theorem LogInv.visit {w : LogWorld A} (h : LogInv w) {a : A} (limits : LogLimits) (now : Nat)
    (todo : List LogFile) (n : LogFile)
    (hregular : RegularStage w a (.going limits now (n :: todo))) :
    LogInv (w.visit a limits now todo n) := by
  cases n with
  | active => exact h.goTo trivial rfl
  | archive k => exact h.goTo trivial rfl
  | scratch k =>
      exact h.unlinkScratch (fun b s hne hb => hregular b s hne hb) (fun _ => trivial) rfl
  | segment k =>
      rw [LogWorld.visit]
      split
      · exact h.goTo trivial rfl
      · split
        · exact h.goTo trivial rfl
        · next st hstat =>
            split
            · exact h.goTo trivial rfl
            · obtain ⟨i, hi, rfl⟩ := Option.map_eq_some_iff.mp hstat
              exact h.goWork (fun b s hne hb => hregular b s hne hb)
                ⟨i, hi, w.files.text i, List.prefix_rfl, rfl⟩ rfl

/-! ## The active file -/

theorem LogInv.opened {w v : LogWorld A} (h : LogInv w) {a : A} {s : LogStage A}
    (hstages : v.stages = Function.update w.stages a (some s))
    (hfiles : v.files = w.files.opened .active) (hlast : v.last = w.last)
    (hcount : w.count ≤ v.count) (hreturned : v.returned = w.returned) (hlost : v.lost = w.lost)
    (hown : v.chunk = w.chunk → LogStageHolds v a s) (hwork : s.work = none) : LogInv v := by
  have hframe : ∀ n, n ≠ .active → v.files.node n = w.files.node n ∧
      ∀ i, w.files.node n = some i → v.files.text i = w.files.text i := by
    intro n hn
    rw [hfiles]
    exact ⟨Files.node_opened_ne w.files hn, fun i hi => Files.text_opened h.sound _ ⟨n, hi⟩⟩
  have hactive : v.textOf .active = w.textOf .active := by
    rw [LogWorld.textOf, LogWorld.textOf, hfiles]
    unfold Files.opened
    split
    · rfl
    · next hnone =>
        have hnone : w.files.node .active = none := by simpa using hnone
        simp [Files.read, Files.publish, hnone]
  have hindexed : ∀ (n : LogFile) (k : Nat), n.index = some k → n ≠ .active := by
    rintro n k hn rfl
    cases hn
  have hexists : ∀ n, n ≠ .active → v.exists n = w.exists n := fun n hn => by
    rw [LogWorld.exists, LogWorld.exists, (hframe n hn).1]
  have hchunk : v.chunk = w.chunk :=
    chunk_congr hlast (fun k _ => part_congr fun n hn => hframe n (hindexed n k hn)) hactive
  refine h.step hstages (hfiles ▸ h.sound.opened _) ?_ ?_ ?_ (fun b hne s' hb => ?_)
    (fun s' hs => ?_) (fun s' k hs hk => ?_) (hchunk ▸ h.ordered) ?_ ?_ (hlost.trans h.lost)
  · intro n k hn hex
    rw [hlast]
    exact h.index n k hn (by rwa [← hexists n (hindexed n k hn)])
  · intro k hk hle
    rw [hexists (.segment k) nofun, hexists (.archive k) nofun]
    exact h.kept k hk (hlast ▸ hle)
  · intro k i j hi hj
    have hs := hframe (.segment k) nofun
    have ha := hframe (.archive k) nofun
    rw [hs.1] at hi
    rw [ha.1] at hj
    rw [hs.2 i hi, ha.2 j hj]
    exact h.archived k i j hi hj
  · refine (h.stages b s' hb).frame hlast.ge (fun i line hw => ?_) fun k _ => ⟨fun i hi => ?_, ?_⟩
    · refine hw.frame (hfiles ▸ Files.next_opened_le _ _) hcount (fun n hn hnode => ⟨n, hn, ?_⟩)
        (fun k l hl _ => by rwa [← hchunk]) fun k hk => .inl ?_
      · rwa [← (hframe n (by rintro rfl; cases hn)).1]
      · rwa [← (hframe (.segment k) nofun).1]
    · have hs := hframe (.segment k) nofun
      exact ⟨hs.1.trans hi, by rw [hs.2 i hi]⟩
    · exact fun n _ hn => hframe n (hindexed n k hn)
  · exact Option.some.inj hs ▸ hown hchunk
  · rw [← Option.some.inj hs, hwork] at hk
    cases hk
  · rw [hchunk]
    exact fun k l hl => lt_of_lt_of_le (h.counted k l hl) hcount
  · rw [hchunk, hreturned]
    exact h.returned

theorem LogInv.append {w : LogWorld A} (h : LogInv w) (a : A) (text : String) :
    LogInv (w.append a text) := by
  unfold LogWorld.append
  split
  · exact h
  · refine h.opened rfl rfl rfl (Nat.le_succ _) rfl rfl (fun hchunk => ?_) rfl
    have hnode : (w.files.opened .active).node .active = some (w.files.openNode .active) :=
      Files.openNode_named _ _
    have hsound := h.sound.opened .active
    refine ⟨rfl, hsound.old _ _ hnode, fun n hn hi => ?_, Nat.lt_succ_self _, fun k l hl _ => ?_,
      fun k k' hk => ?_⟩
    · have heq := hsound.one _ _ _ hi hnode
      subst heq
      cases hn
    · rw [hchunk] at hl
      exact h.counted k l hl
    · exact absurd (hsound.one _ _ _ hk hnode) nofun

theorem nextIndex_le (w : LogWorld A) : w.nextIndex ≤ w.last + 1 := by
  have hfold : ∀ (ks : List Nat) (m : Nat), m ≤ w.last → (∀ k ∈ ks, k ≤ w.last) →
      ks.foldl max m ≤ w.last := by
    intro ks
    induction ks with
    | nil => exact fun m hm _ => hm
    | cons k ks ih =>
        intro m hm hks
        refine ih _ (max_le hm (hks k List.mem_cons_self)) fun k' hk' => ?_
        exact hks k' (List.mem_cons_of_mem _ hk')
  refine Nat.succ_le_succ (hfold _ 0 (Nat.zero_le _) fun k hk => ?_)
  have hrange := List.mem_range.mp (List.mem_of_mem_filter hk)
  exact Nat.lt_succ_iff.mp hrange

theorem LogInv.seal {w : LogWorld A} (h : LogInv w) {a : A} {limits : LogLimits} {now i k : Nat}
    (works : Bool) (hs : w.stages a = some (.sealing limits now i k))
    (hregular : w.exists (.segment k) = false ∧ w.exists (.archive k) = false) :
    LogInv (w.act a works (.sealing limits now i k)) := by
  obtain ⟨hpos, hle⟩ := h.stages a _ hs
  obtain rfl : k = w.last + 1 := by
    by_contra hne
    rcases h.kept k hpos (by omega) with hk | hk
    · rw [hregular.1] at hk
      cases hk
    · rw [hregular.2] at hk
      cases hk
  rw [LogWorld.act]
  split
  · next hactive =>
    obtain ⟨j, hj⟩ := exists_iff.mp (Bool.and_eq_true_iff.mp hactive).1
    generalize hv : ({ w with
      files := w.files.rename .active (.segment (w.last + 1))
      last := max w.last (w.last + 1)
      lost := w.lost ++ (w.textOf (.segment (w.last + 1))).filter (· ∉ w.textOf .active) }.setStage
        a (some (.touching limits now i)) : LogWorld A) = v
    have hlast : v.last = w.last + 1 := by
      subst hv
      exact Nat.max_eq_right (Nat.le_succ _)
    have hnode : ∀ n, v.files.node n = if n = .active then none
        else if n = .segment (w.last + 1) then some j else w.files.node n := by
      intro n
      subst hv
      simp only [LogWorld.setStage, Files.rename, Function.update_apply, hj]
    have htext : v.files.text = w.files.text := by
      subst hv
      rfl
    have hold : ∀ n, n ≠ .active → n ≠ .segment (w.last + 1) →
        v.files.node n = w.files.node n := fun n hn hn' => by
      rw [hnode, if_neg hn, if_neg hn']
    have hnew : v.files.node (.segment (w.last + 1)) = some j := by
      rw [hnode, if_neg nofun, if_pos rfl]
    have hchunk : v.chunk = w.chunk := by
      funext m
      by_cases hm : m ≤ w.last
      · rw [chunk_part w hm, chunk_part v (by omega)]
        refine part_congr fun n hn => ⟨hold n ?_ ?_, fun _ _ => by rw [htext]⟩
        · rintro rfl
          cases hn
        · rintro rfl
          obtain rfl := Option.some.inj hn
          omega
      · by_cases heq : m = w.last + 1
        · rw [heq, chunk_active, chunk_part v hlast.ge, part_segment hnew, textOf_some hj, htext]
        · rw [chunk_beyond w (by omega)]
          by_cases hnext : m = w.last + 1 + 1
          · rw [hnext, ← hlast, chunk_active, textOf_none]
            rw [hnode, if_pos rfl]
          · exact chunk_beyond v (by omega)
    have hpacked : ∀ n, n.packed = true → v.files.node n = w.files.node n := by
      intro n hn
      refine hold n ?_ ?_ <;> rintro rfl <;> cases hn
    refine h.step (a := a) (by subst hv; rfl) (by subst hv; exact h.sound.rename _ _) ?_ ?_ ?_
      (fun b hne s' hb => ?_) (fun s' hs' => ?_) (fun s' m hs' hm => ?_) (hchunk ▸ h.ordered) ?_ ?_
      ?_
    · intro n m hn hex
      rw [hlast]
      by_cases hm : m = w.last + 1
      · exact hm.le
      · refine Nat.le_succ_of_le (h.index n m hn ?_)
        rw [LogWorld.exists, hold n] at hex
        · exact hex
        · rintro rfl
          cases hn
        · rintro rfl
          exact hm (Option.some.inj hn).symm
    · intro m hm hmle
      by_cases heq : m = w.last + 1
      · exact .inl (exists_iff.mpr ⟨j, heq ▸ hnew⟩)
      · rw [LogWorld.exists, LogWorld.exists, hold (.segment m) nofun (by simpa using heq),
          hold (.archive m) nofun nofun]
        exact h.kept m hm (by omega)
    · intro m o o' ho ho'
      rw [htext]
      rw [hpacked _ rfl] at ho'
      have hexists := h.index (.archive m) m rfl (exists_iff.mpr ⟨o', ho'⟩)
      rw [hold (.segment m) nofun (by rintro ⟨⟩; omega)] at ho
      exact h.archived m o o' ho ho'
    · refine (h.stages b s' hb).frame (by omega) (fun o line hw => ?_)
        fun m hm => ⟨fun o ho => ?_, ?_⟩
      · refine hw.frame ?_ ?_ (fun n hn hnode' => ⟨n, hn, (hpacked n hn).symm.trans hnode'⟩)
          (fun m l hl _ => hchunk ▸ hl) fun m hm => ?_
        · subst hv
          exact Nat.le_refl _
        · subst hv
          exact Nat.le_refl _
        · by_cases heq : m = w.last + 1
          · refine .inr fun m' hm' => ?_
            rw [hchunk]
            exact chunk_beyond w (by omega)
          · exact .inl ((hold (.segment m) nofun (by simpa using heq)).symm.trans hm)
      · have hmle := h.index (.segment m) m rfl (exists_iff.mpr ⟨o, ho⟩)
        rw [htext]
        exact ⟨(hold (.segment m) nofun (by rintro ⟨⟩; omega)).trans ho, List.prefix_rfl⟩
      · exact fun n hn _ => ⟨hpacked n hn, fun _ _ => by rw [htext]⟩
    · obtain rfl := Option.some.inj hs'
      trivial
    · rw [← Option.some.inj hs'] at hm
      cases hm
    · rw [hchunk]
      subst hv
      exact h.counted
    · rw [hchunk]
      subst hv
      exact h.returned
    · subst hv
      change w.lost ++ _ = []
      have hempty : w.textOf (.segment (w.last + 1)) = [] :=
        textOf_none (by simpa [LogWorld.exists] using hregular.1)
      rw [h.lost, hempty]
      rfl
  · exact h.leave a

/-! ## A line -/

theorem LogInv.position {w : LogWorld A} (h : LogInv w) {a : A} {i : Nat} {line : LogLine A}
    (hw : Writing w a i line) (hnamed : w.files.Named i) :
    ∃ k, (∀ v : LogWorld A, v.files = w.files.write i [line] → v.last = w.last →
        ∀ m, v.chunk m = if m = k then w.chunk m ++ [line] else w.chunk m) ∧
      ∀ m, k < m → ∀ l ∈ w.chunk m, l.writer ≠ a := by
  obtain ⟨n, hn⟩ := hnamed
  have hplain : n.packed = false := by
    by_contra hpacked
    exact hw.plain n (by simpa using hpacked) hn
  -- a name of another node keeps its text
  have hother : ∀ (v : LogWorld A), v.files = w.files.write i [line] → ∀ m, m ≠ n →
      v.files.node m = w.files.node m ∧
        ∀ j, w.files.node m = some j → v.files.text j = w.files.text j := by
    intro v hv m hm
    rw [hv]
    refine ⟨rfl, fun j hj => Files.text_write_ne _ _ ?_⟩
    rintro rfl
    exact hm (h.sound.one _ _ _ hj hn)
  have hself : ∀ (v : LogWorld A), v.files = w.files.write i [line] →
      v.files.node n = some i ∧ v.files.text i = w.files.text i ++ [line] := by
    intro v hv
    rw [hv]
    exact ⟨hn, Files.text_write_self ..⟩
  cases n with
  | active =>
      refine ⟨w.last + 1, fun v hv hlast m => ?_, fun m hm l hl => ?_⟩
      · have hpart : ∀ k, v.part k = w.part k := fun k =>
          part_congr fun n hn => hother v hv n (by rintro rfl; cases hn)
        obtain ⟨hnode, htext⟩ := hself v hv
        split
        · next heq =>
            rw [heq, chunk_active, ← hlast, chunk_active, textOf_some hnode, textOf_some hn, htext]
        · next hne =>
            unfold LogWorld.chunk
            rw [hlast, hpart, if_neg hne, if_neg hne]
      · rw [chunk_beyond w hm] at hl
        cases hl
  | segment k =>
      have hk : k ≤ w.last := h.index _ k rfl (exists_iff.mpr ⟨i, hn⟩)
      refine ⟨k, fun v hv hlast m => ?_, fun m hm => hw.lastly k m hn hm⟩
      obtain ⟨hnode, htext⟩ := hself v hv
      split
      · next heq =>
          rw [heq, chunk_part w hk, chunk_part v (hlast ▸ hk), part_segment hnode, part_segment hn,
            htext]
      · next hne =>
          have hactive := hother v hv .active nofun
          unfold LogWorld.chunk
          rw [hlast, textOf_congr hactive.1 hactive.2]
          split
          · refine part_congr fun n hn' => hother v hv n ?_
            rintro rfl
            exact hne (Option.some.inj hn').symm
          · rfl
  | archive k => cases hplain
  | scratch k => cases hplain

theorem Ordered.append {chunk chunk' : Nat → List (LogLine A)} (h : Ordered chunk) {k : Nat}
    {line : LogLine A}
    (hchunk : ∀ m, chunk' m = if m = k then chunk m ++ [line] else chunk m)
    (hnewest : ∀ m, ∀ l ∈ chunk m, Before l line)
    (hlastly : ∀ m, k < m → ∀ l ∈ chunk m, Before line l) : Ordered chunk' := by
  have hmem : ∀ m l, l ∈ chunk' m → l ∈ chunk m ∨ (m = k ∧ l = line) := by
    intro m l hl
    rw [hchunk] at hl
    split at hl
    · next heq =>
        rcases List.mem_append.mp hl with hl | hl
        · exact .inl hl
        · exact .inr ⟨heq, List.mem_singleton.mp hl⟩
    · exact .inl hl
  constructor
  · intro m
    rw [hchunk]
    split
    · refine List.pairwise_append.mpr ⟨h.within m, List.pairwise_singleton _ _, ?_⟩
      intro l hl l' hl'
      rw [List.mem_singleton.mp hl']
      exact hnewest m l hl
    · exact h.within m
  · intro m m' hlt l hl l' hl'
    rcases hmem m l hl with hl | ⟨rfl, rfl⟩ <;> rcases hmem m' l' hl' with hl' | ⟨rfl, rfl⟩
    · exact h.across m m' hlt l hl l' hl'
    · exact hnewest m l hl
    · exact hlastly m' hlt l' hl'
    · exact absurd hlt (Nat.lt_irrefl _)

theorem LogInv.line {w : LogWorld A} (h : LogInv w) {a : A} {i : Nat} {line : LogLine A}
    (works : Bool) (hs : w.stages a = some (.locked i line)) (hnamed : w.files.Named i) :
    LogInv (w.act a works (.locked i line)) := by
  have hw : Writing w a i line := h.stages a _ hs
  obtain ⟨k, hposition, hlastly⟩ := h.position hw hnamed
  rw [LogWorld.act]
  split
  · generalize hv : ({ w with
      files := w.files.write i [line]
      mtime := Function.update w.mtime i w.now
      returned := w.returned ++ [line] } : LogWorld A).leave a = v
    have hfiles : v.files = w.files.write i [line] := by
      subst hv
      rfl
    have hlast : v.last = w.last := by
      subst hv
      rfl
    have hcount : v.count = w.count := by
      subst hv
      rfl
    have hchunk := hposition v hfiles hlast
    have hmem : ∀ m l, l ∈ v.chunk m → l ∈ w.chunk m ∨ l = line := by
      intro m l hl
      rw [hchunk] at hl
      split at hl
      · rcases List.mem_append.mp hl with hl | hl
        · exact .inl hl
        · exact .inr (List.mem_singleton.mp hl)
      · exact .inl hl
    have hexists : ∀ n, v.exists n = w.exists n := fun n => by
      rw [LogWorld.exists, LogWorld.exists, hfiles]
      rfl
    have hpacked : ∀ n, n.packed = true → v.files.node n = w.files.node n ∧
        ∀ j, w.files.node n = some j → v.files.text j = w.files.text j := by
      intro n hn
      rw [hfiles]
      refine ⟨rfl, fun j hj => Files.text_write_ne _ _ ?_⟩
      rintro rfl
      exact hw.plain n hn hj
    have hgrown : ∀ j, w.files.text j <+: v.files.text j := by
      intro j
      rw [hfiles]
      by_cases hj : j = i
      · subst hj
        rw [Files.text_write_self]
        exact List.prefix_append _ _
      · rw [Files.text_write_ne _ _ hj]
    have hnode : v.files.node = w.files.node := by
      rw [hfiles]
      rfl
    have hstages : v.stages = Function.update w.stages a none := by
      subst hv
      rfl
    refine h.step hstages (hfiles ▸ h.sound.write _ _) ?_ ?_ ?_ (fun b hne s' hb => ?_)
      (fun _ hs' => (nomatch hs')) (fun _ _ hs' => (nomatch hs')) ?_ ?_ ?_ ?_
    · intro n m hn hex
      rw [hlast]
      exact h.index n m hn (by rwa [← hexists])
    · intro m hm hle
      rw [hexists, hexists]
      exact h.kept m hm (hlast ▸ hle)
    · intro m j j' hj hj'
      rw [hnode] at hj hj'
      rw [(hpacked (.archive m) rfl).2 j' hj']
      exact (h.archived m j j' hj hj').trans (hgrown j)
    · refine (h.stages b s' hb).frame hlast.ge (fun j other hother => ?_)
        fun m _ => ⟨fun j hj => ?_, ?_⟩
      · refine hother.frame (by rw [hfiles]; exact Nat.le_refl _) hcount.ge
          (fun n hn hj => ⟨n, hn, by rwa [← hnode]⟩) (fun m l hl hown => ?_)
          fun m hj => .inl (by rwa [← hnode])
        rcases hmem m l hl with hl | rfl
        · exact hl
        · exact absurd (hown.symm.trans hw.own) hne
      · rw [hnode]
        exact ⟨hj, hgrown j⟩
      · exact fun n hn _ => hpacked n hn
    · refine h.ordered.append hchunk (fun m l hl hown => ?_) fun m hm l hl hown => ?_
      · exact hw.newest m l hl (hown.trans hw.own)
      · exact absurd (hown.symm.trans hw.own) (hlastly m hm l hl)
    · intro m l hl
      rw [hcount]
      rcases hmem m l hl with hl | rfl
      · exact h.counted m l hl
      · exact hw.number
    · intro l hl
      have hl : l ∈ w.returned ++ [line] := by
        subst hv
        exact hl
      rcases List.mem_append.mp hl with hl | hl
      · obtain ⟨m, hm⟩ := h.returned l hl
        refine ⟨m, ?_⟩
        rw [hchunk]
        split
        · exact List.mem_append_left _ hm
        · exact hm
      · refine ⟨k, ?_⟩
        rw [hchunk, if_pos rfl]
        exact List.mem_append_right _ hl
    · subst hv
      exact h.lost
  · exact h.leave a

/-! ## Runs -/

theorem LogInv.unlock {w : LogWorld A} (h : LogInv w) {a : A} {i : Nat} {s : LogStage A}
    (hown : LogStageHolds w a s) (hwork : s.work = none) : LogInv (w.unlock a i s) := by
  refine h.goOn rfl rfl rfl rfl rfl rfl (fun s' hs => ?_) fun s' k hs hk => ?_
  · exact Option.some.inj hs ▸ hown
  · rw [← Option.some.inj hs, hwork] at hk
    cases hk

theorem LogInv.act {w : LogWorld A} (h : LogInv w) {a : A} {s : LogStage A} (works : Bool)
    (hs : w.stages a = some s) (hregular : RegularStage w a s) : LogInv (w.act a works s) := by
  have hown := h.stages a s hs
  cases s with
  | opened i line =>
      rw [LogWorld.act]
      split
      · exact h.lock hown rfl
      · exact h
  | locked i line => exact h.line works hs hregular
  | found limits now =>
      rw [LogWorld.act]
      split
      · exact h.goTo trivial rfl
      · exact h.leave a
  | waiting limits now i =>
      rw [LogWorld.act]
      split
      · exact h.lock trivial rfl
      · exact h
  | measuring limits now i =>
      rw [LogWorld.act]
      split
      · split
        · exact h.goTo trivial rfl
        · exact h.unlock trivial rfl
      · exact h.leave a
  | counting limits now i => exact h.goTo ⟨Nat.succ_pos _, nextIndex_le w⟩ rfl
  | sealing limits now i k => exact h.seal works hs hregular
  | touching limits now i => exact h.opened rfl rfl rfl le_rfl rfl rfl (fun _ => trivial) rfl
  | listing limits now => exact h.goTo trivial rfl
  | going limits now todo =>
      cases todo with
      | nil => exact h.leave a
      | cons n todo => exact h.visit limits now todo n hregular
  | compressing limits now k st how todo => exact h.compress works hs hregular

theorem LogInv.rotate {w : LogWorld A} (h : LogInv w) (a : A) (limits : LogLimits) :
    LogInv (w.rotate a limits) := by
  unfold LogWorld.rotate
  dsimp only
  split
  · exact h
  · split
    · exact h
    · split
      · exact h.goTo trivial rfl
      · exact h.goTo trivial rfl

theorem LogInv.exec {w : LogWorld A} (h : LogInv w) {deed : LogDeed A}
    (hregular : RegularLog w deed) : LogInv (w.exec deed) := by
  cases deed with
  | tick nanoseconds =>
      refine ⟨h.sound, h.index, h.kept, h.archived, fun a s hs => ?_, h.alone, h.ordered, h.counted,
        h.returned, h.lost⟩
      exact (h.stages a s hs).congr rfl rfl (Nat.le_refl _)
  | append a text => exact h.append a text
  | rotate a limits => exact h.rotate a limits
  | rotatePipeline a maxBytes =>
      rw [LogWorld.exec, LogWorld.rotatePipeline]
      split
      · split
        · exact h
        · exact h.rotate a _
      · exact h
  | act a works =>
      rw [LogWorld.exec]
      split
      · next s hs => exact h.act works hs (hregular s hs)
      · exact h
  | stop a => exact h.leave a

theorem LogInv.start : LogInv ({} : LogWorld A) := by
  have hchunk : ∀ k, ({} : LogWorld A).chunk k = [] := by
    intro k
    unfold LogWorld.chunk LogWorld.part
    split
    · rfl
    · split <;> rfl
  have hnone : ∀ k l, l ∈ ({} : LogWorld A).chunk k → False := by
    intro k l hl
    rw [hchunk] at hl
    cases hl
  refine ⟨.empty, fun _ _ _ hex => ?_, fun k hk hle => absurd hk (Nat.not_lt.mpr hle),
    fun _ _ _ hi => (nomatch hi), fun _ _ hs => (nomatch hs), fun _ _ _ _ _ hs => (nomatch hs),
    ⟨fun k => ?_, fun k _ _ l hl => (hnone k l hl).elim⟩, fun k l hl => (hnone k l hl).elim,
    fun _ hl => (nomatch hl), rfl⟩
  · exact absurd hex (by simp [LogWorld.exists])
  · rw [hchunk]
    exact .nil

/-- One step that meets the condition. -/
def RegularLogStep (w : LogWorld A) (deed : LogDeed A) (w' : LogWorld A) : Prop :=
  w' = w.exec deed ∧ RegularLog w deed

/-- In a run of regular steps every line whose append returned is in the active file, in a segment
or in an archive, nothing was replaced by a file without its lines, and the parts and the active
file hold the lines of each writer in order. -/
theorem rotation_conserves {w : LogWorld A} {deeds : List (LogDeed A)}
    (h : Run RegularLogStep ({} : LogWorld A) deeds w) :
    (∀ line ∈ w.returned, line ∈ w.textOf .active ∨
      ∃ k, line ∈ w.textOf (.segment k) ∨ line ∈ w.textOf (.archive k)) ∧
    w.lost = [] ∧ w.lines.Pairwise Before := by
  have hinv : LogInv w := by
    refine h.invariant (I := LogInv) .start ?_
    rintro v deed v' hv ⟨rfl, hregular⟩
    exact hv.exec hregular
  refine ⟨fun line hline => ?_, hinv.lost, ?_⟩
  · obtain ⟨k, hk⟩ := hinv.returned line hline
    exact of_mem_chunk hk
  · refine List.pairwise_flatMap.mpr ⟨fun k _ => hinv.ordered.within k, ?_⟩
    exact List.pairwise_lt_range.imp fun hlt => hinv.ordered.across _ _ hlt

end

/-! ### A writer that is late -/

def logRun (deeds : List (LogDeed Nat)) : LogWorld Nat := deeds.foldl LogWorld.exec {}

def oneByte : LogLimits := { maxBytes := 1 }

/-- A line, and a rotation after it was written. -/
def rotatedDeeds : List (LogDeed Nat) :=
  [.append 0 "first", .act 0 true, .act 0 true, .rotate 1 oneByte, .act 1 true, .act 1 true,
    .act 1 true, .act 1 true]

def LogStage.guarded {A : Type} : LogStage A → Bool
  | .locked _ _ | .sealing _ _ _ _ | .going _ _ _ | .compressing _ _ _ _ _ _ => true
  | _ => false

theorem rotation_conserves_sample :
    (logRun (rotatedDeeds ++ [.act 1 true])).returned.map (·.text) = ["first"] ∧
      (logRun (rotatedDeeds ++ [.act 1 true])).lines.Pairwise Before := by
  have hact : ∀ {w : LogWorld Nat} {a : Nat} {works : Bool},
      (w.stages a).all (!·.guarded) = true → RegularLog w (.act a works) := by
    intro w a works hw s hs
    rw [hs] at hw
    cases s with
    | locked | sealing | going | compressing => cases hw
    | opened | found | waiting | measuring | counting | touching | listing => trivial
  have hline : RegularLog (logRun (rotatedDeeds.take 2)) (.act 0 true) := by
    intro s hs
    obtain rfl : s = .locked 0 ⟨0, 0, "first"⟩ := Option.some.inj (hs.symm.trans rfl)
    exact ⟨.active, rfl⟩
  have hseal : RegularLog (logRun rotatedDeeds) (.act 1 true) := by
    intro s hs
    obtain rfl : s = .sealing oneByte 0 0 1 := Option.some.inj (hs.symm.trans rfl)
    exact ⟨rfl, rfl⟩
  have hrun : Run RegularLogStep ({} : LogWorld Nat) (rotatedDeeds ++ [.act 1 true])
      (logRun (rotatedDeeds ++ [.act 1 true])) :=
    ((((((((Run.nil.snoc ⟨rfl, trivial⟩).snoc ⟨rfl, hact (by decide +kernel)⟩).snoc
      ⟨rfl, hline⟩).snoc ⟨rfl, trivial⟩).snoc ⟨rfl, hact (by decide +kernel)⟩).snoc
      ⟨rfl, hact (by decide +kernel)⟩).snoc ⟨rfl, hact (by decide +kernel)⟩).snoc
      ⟨rfl, hact (by decide +kernel)⟩).snoc ⟨rfl, hseal⟩
  exact ⟨by decide +kernel, (rotation_conserves hrun).2.2⟩

/-- Two lines; the log is rotated between the open and the write of the second one, and its segment
compressed. The write comes after the segment was compared. -/
def lateDeeds : List (LogDeed Nat) :=
  [.append 0 "first", .act 0 true, .act 0 true, .append 0 "second", .rotate 1 oneByte] ++
    List.replicate 14 (.act 1 true) ++ [.act 0 true, .act 0 true, .act 1 true]

theorem node_late : (logRun lateDeeds).files.node =
    (((((({} : Files LogFile (LogLine Nat)).publish .active []).rename .active
      (.segment 1)).publish .active []).publish (.scratch 1) []).rename (.scratch 1)
      (.archive 1) |>.unlink (.segment 1)).node := by
  rfl

/-- The second line was returned and is nowhere. -/
theorem late_line_lost : ∃ w : LogWorld Nat,
    Run (fun w deed w' => w' = w.exec deed) {} lateDeeds w ∧
      ∃ line ∈ w.returned, line ∉ w.textOf .active ∧
        ∀ k, line ∉ w.textOf (.segment k) ∧ line ∉ w.textOf (.archive k) := by
  refine ⟨logRun lateDeeds, .foldl _ _ _, ⟨0, 1, "second"⟩, by decide +kernel, by decide +kernel,
    fun k => ?_⟩
  by_cases hk : k = 1
  · subst hk
    decide +kernel
  · have hsegment : (logRun lateDeeds).files.node (.segment k) = none := by
      rw [node_late]
      simp [Files.unlink, Files.rename, Files.publish, hk]
    have harchive : (logRun lateDeeds).files.node (.archive k) = none := by
      rw [node_late]
      simp [Files.unlink, Files.rename, Files.publish, hk]
    rw [textOf_none hsegment, textOf_none harchive]
    exact ⟨List.not_mem_nil, List.not_mem_nil⟩

end TrwMcp.Telemetry
