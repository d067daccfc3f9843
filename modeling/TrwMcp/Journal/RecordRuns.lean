import TrwMcp.Journal.Records

/-!
# No learning lost, none brought back

The invariant of the record's files, kept by every step that meets the condition: the attempt count
is not written over a consumed record, a dead-letter copy is made of a record that was read, and no
two parties have one temp file open.
-/

namespace TrwMcp.Journal

open Lib

section

variable {A V : Type}

/-- The temp file a party has open. -/
def Stand.writes : Stand V → Option (WriteJob V × Nat)
  | .filling job inode | .replacing job inode => some (job, inode)
  | _ => none

/-- What has to be the case for the step not to lose or revive the learning. -/
def Orderly (w : Files A V) (a : A) : Deed → Prop
  | .replace _ => ∀ record inode, w.stands a = .replacing (.attempt record) inode →
      w.consumed = false
  | .reread readable => w.settled = true ∨ readable = true ∧ (w.content .pending).isSome
  | .open _ => ∀ job, w.stands a = .opening job →
      ∀ b job' inode, b ≠ a → (w.stands b).writes = some (job', inode) → job'.tmp ≠ job.tmp
  | _ => True

@[simp] theorem WriteJob.tmp_ne_pending (job : WriteJob V) : job.tmp ≠ .pending := by
  cases job <;> simp [WriteJob.tmp]

@[simp] theorem WriteJob.tmp_ne_deadLetter (job : WriteJob V) : job.tmp ≠ .deadLetter := by
  cases job <;> simp [WriteJob.tmp]

theorem WriteJob.tmp_ne_target (job job' : WriteJob V) : job.tmp ≠ job'.target := by
  cases job' <;> simp [WriteJob.target]

/-- The records in flight are whole: a copy of the pending record, or of what dead-lettering makes
of it. -/
def WriteJob.good (mask : V → V) (p : V) (settled : Bool) : WriteJob V → Prop
  | .attempt record => record.payload = some p
  | .deadLetter record fallback => (settled = true ∨ record.payload = some (mask p)) ∧
      ∀ record', fallback = some record' → record'.payload = some p

def Stand.good (mask : V → V) (p : V) (settled : Bool) : Stand V → Prop
  | .idle | .pipeline => True
  | .snapshot record | .replaying record | .testing record _ => record.payload = some p
  | .confirmed after => settled = true ∧
      ∀ record out, after = some (record, out) → record.payload = some p
  | .rereading _ fallback | .unlinking fallback =>
      ∀ record, fallback = some record → record.payload = some p
  | .opening job | .filling job _ | .replacing job _ => job.good mask p settled

structure Kept (mask : V → V) (p : V) (w : Files A V) : Prop where
  inj : ∀ m n i, w.names m = some i → w.names n = some i → m = n
  bound : ∀ n i, w.names n = some i → i < w.next
  writer : ∀ a job i, (w.stands a).writes = some (job, i) → w.names job.tmp = some i
  filled : ∀ a job i, w.stands a = .replacing job i → w.disk i = some job.record
  alone : ∀ a b job job' i j, a ≠ b → (w.stands a).writes = some (job, i) →
    (w.stands b).writes = some (job', j) → job.tmp ≠ job'.tmp
  good : ∀ a, (w.stands a).good mask p w.settled
  pendingWhole : ∀ i, w.names .pending = some i →
    ∃ record, w.disk i = some record ∧ record.payload = some p
  deadWhole : w.settled = false → ∀ i, w.names .deadLetter = some i →
    ∃ record, w.disk i = some record ∧ record.payload = some (mask p)
  moved : ∀ a fallback, w.stands a = .unlinking fallback →
    w.settled = true ∨ (w.names .deadLetter).isSome
  kept : w.settled = false → (w.names .pending).isSome ∨ (w.names .deadLetter).isSome
  gone : w.consumed = true → w.names .pending = none

theorem WriteJob.good.settle {mask : V → V} {p : V} {s s' : Bool} {job : WriteJob V}
    (h : job.good mask p s) (hs : s = true → s' = true) : job.good mask p s' := by
  cases job with
  | attempt record => exact h
  | deadLetter record fallback => exact ⟨h.1.imp_left hs, h.2⟩

theorem Stand.good.settle {mask : V → V} {p : V} {s s' : Bool} {stand : Stand V}
    (h : stand.good mask p s) (hs : s = true → s' = true) : stand.good mask p s' := by
  cases stand with
  | confirmed after => exact ⟨hs h.1, h.2⟩
  | opening job => exact WriteJob.good.settle h hs
  | filling job inode => exact WriteJob.good.settle h hs
  | replacing job inode => exact WriteJob.good.settle h hs
  | _ => exact h

theorem WriteJob.good.failed {mask : V → V} {p : V} {s : Bool} {job : WriteJob V}
    (h : job.good mask p s) : job.failed.good mask p s := by
  cases job with
  | attempt record => trivial
  | deadLetter record fallback =>
      cases fallback with
      | none => trivial
      | some record' => exact h.2 record' rfl

theorem WriteJob.failed_writes (job : WriteJob V) : job.failed.writes = none := by
  cases job with
  | attempt record => rfl
  | deadLetter record fallback => cases fallback <;> rfl

theorem WriteJob.failed_ne_unlinking (job : WriteJob V) (fallback : Option (JournalRecord V)) :
    job.failed ≠ .unlinking fallback := by
  cases job with
  | attempt record => simp [WriteJob.failed]
  | deadLetter record fallback => cases fallback <;> simp [WriteJob.failed]

variable [DecidableEq A] {mask : V → V} {p : V} {w : Files A V} {a : A}

/-- A party moves on with no temp file open, the files stay, and a terminal outcome may have been
confirmed. -/
theorem Kept.put (h : Kept mask p w) {stand : Stand V} {settled : Bool}
    (hsettled : w.settled = true → settled = true) (hgood : stand.good mask p settled)
    (hwrites : stand.writes = none)
    (hmoved : ∀ fallback, stand = .unlinking fallback →
      settled = true ∨ (w.names .deadLetter).isSome) :
    Kept mask p { (w.put a stand) with settled := settled } := by
  have hstand : ∀ b, Function.update w.stands a stand b = stand ∨
      Function.update w.stands a stand b = w.stands b := by
    intro b
    rw [Function.update_apply]
    split
    · exact .inl rfl
    · exact .inr rfl
  have hback : ∀ b job i, (Function.update w.stands a stand b).writes = some (job, i) →
      (w.stands b).writes = some (job, i) := by
    intro b job i hb
    rcases hstand b with he | he <;> rw [he] at hb
    · rw [hwrites] at hb
      cases hb
    · exact hb
  have hopen : settled = false → w.settled = false := by
    intro hs
    cases hw : w.settled with
    | false => rfl
    | true => rw [hsettled hw] at hs; cases hs
  refine ⟨h.inj, h.bound, ?_, ?_, ?_, ?_, h.pendingWhole, fun hs => h.deadWhole (hopen hs), ?_,
    fun hs => h.kept (hopen hs), h.gone⟩
  · exact fun b job i hb => h.writer b job i (hback b job i hb)
  · intro b job i hb
    rcases hstand b with he | he
    · have hstands : stand = .replacing job i := he.symm.trans hb
      rw [hstands] at hwrites
      cases hwrites
    · exact h.filled b job i (he.symm.trans hb)
  · exact fun b c job job' i j hne hb hc =>
      h.alone b c job job' i j hne (hback b job i hb) (hback c job' j hc)
  · intro b
    change (Function.update w.stands a stand b).good mask p settled
    rcases hstand b with he | he <;> rw [he]
    · exact hgood
    · exact (h.good b).settle hsettled
  · intro b fallback hb
    rcases hstand b with he | he
    · exact hmoved fallback (he.symm.trans hb)
    · exact (h.moved b fallback (he.symm.trans hb)).imp_left hsettled

theorem Kept.goto (h : Kept mask p w) {stand : Stand V} (hgood : stand.good mask p w.settled)
    (hwrites : stand.writes = none)
    (hmoved : ∀ fallback, stand = .unlinking fallback →
      w.settled = true ∨ (w.names .deadLetter).isSome) : Kept mask p (w.put a stand) :=
  h.put (fun hs => hs) hgood hwrites hmoved

omit [DecidableEq A] in
theorem Kept.unlink (h : Kept mask p w) {consumed : Bool}
    (hsafe : w.settled = true ∨ (w.names .deadLetter).isSome) :
    Kept mask p { (w.unlink .pending) with consumed := consumed } := by
  have hname : ∀ n i, Function.update w.names .pending none n = some i → w.names n = some i := by
    intro n i hn
    rw [Function.update_apply] at hn
    split at hn
    · cases hn
    · exact hn
  have hdead : Function.update w.names .pending none .deadLetter = w.names .deadLetter :=
    Function.update_of_ne (by decide) ..
  refine ⟨?_, ?_, ?_, h.filled, h.alone, h.good, ?_, ?_, ?_, ?_, ?_⟩
  · exact fun m n i hm hn => h.inj m n i (hname m i hm) (hname n i hn)
  · exact fun n i hn => h.bound n i (hname n i hn)
  · intro b job i hb
    exact (Function.update_of_ne job.tmp_ne_pending ..).trans (h.writer b job i hb)
  · exact fun i hi => h.pendingWhole i (hname _ i hi)
  · exact fun hs i hi => h.deadWhole hs i (hname _ i hi)
  · intro b fallback hb
    exact (h.moved b fallback hb).imp_right fun hd => hdead ▸ hd
  · intro hs
    refine .inr ?_
    rcases hsafe with hsettled | hd
    · rw [show w.settled = false from hs] at hsettled
      cases hsettled
    · exact hdead ▸ hd
  · exact fun _ => by simp [Files.unlink]

theorem Kept.write (h : Kept mask p w) {job : WriteJob V} {stand : Stand V} {i next : Nat}
    {names : FileName → Option Nat} {disk : Nat → Option (JournalRecord V)}
    (hgood : job.good mask p w.settled)
    (hstand : stand = .filling job i ∨ stand = .replacing job i ∧ disk i = some job.record)
    (hothers : ∀ b job' j, b ≠ a → (w.stands b).writes = some (job', j) → job'.tmp ≠ job.tmp)
    (hnames : ∀ n, n ≠ job.tmp → names n = w.names n) (htmp : names job.tmp = some i)
    (huniq : ∀ n, w.names n = some i → n = job.tmp) (hdisk : ∀ j, j ≠ i → disk j = w.disk j)
    (hnext : w.next ≤ next) (hi : i < next) :
    Kept mask p { w with
      names := names
      disk := disk
      next := next
      stands := Function.update w.stands a stand } := by
  have hwrites : stand.writes = some (job, i) := by
    rcases hstand with rfl | ⟨rfl, -⟩ <;> rfl
  have hself : Function.update w.stands a stand a = stand := Function.update_self ..
  have hother : ∀ b, b ≠ a → Function.update w.stands a stand b = w.stands b :=
    fun b hb => Function.update_of_ne hb ..
  -- no file under another name is touched
  have hkeep : ∀ n j, n ≠ job.tmp → w.names n = some j → disk j = w.disk j := by
    intro n j hn hj
    refine hdisk j ?_
    rintro rfl
    exact hn (huniq n hj)
  have hpending : names .pending = w.names .pending := hnames _ job.tmp_ne_pending.symm
  have hdead : names .deadLetter = w.names .deadLetter := hnames _ job.tmp_ne_deadLetter.symm
  refine ⟨?_, ?_, ?_, ?_, ?_, ?_, ?_, ?_, ?_, ?_, ?_⟩
  · intro m n j hm hn
    by_cases hmt : m = job.tmp
    · by_cases hnt : n = job.tmp
      · rw [hmt, hnt]
      · have hij : i = j := Option.some.inj (htmp.symm.trans (hmt ▸ hm))
        rw [hmt, huniq n (hij ▸ hnames n hnt ▸ hn)]
    · by_cases hnt : n = job.tmp
      · have hij : i = j := Option.some.inj (htmp.symm.trans (hnt ▸ hn))
        rw [hnt, huniq m (hij ▸ hnames m hmt ▸ hm)]
      · exact h.inj m n j (hnames m hmt ▸ hm) (hnames n hnt ▸ hn)
  · intro n j hn
    by_cases hnt : n = job.tmp
    · obtain rfl : i = j := Option.some.inj (htmp.symm.trans (hnt ▸ hn))
      exact hi
    · exact (h.bound n j (hnames n hnt ▸ hn)).trans_le hnext
  · intro b job' j hb
    by_cases hba : b = a
    · subst hba
      change (Function.update w.stands b stand b).writes = _ at hb
      rw [hself, hwrites] at hb
      obtain ⟨rfl, rfl⟩ := Prod.mk.inj (Option.some.inj hb)
      exact htmp
    · change (Function.update w.stands a stand b).writes = _ at hb
      rw [hother b hba] at hb
      exact (hnames _ (hothers b job' j hba hb)).trans (h.writer b job' j hb)
  · intro b job' j hb
    by_cases hba : b = a
    · subst hba
      have hb : stand = .replacing job' j := hself.symm.trans hb
      rcases hstand with rfl | ⟨rfl, hfilled⟩
      · cases hb
      · cases hb
        exact hfilled
    · have hb : w.stands b = .replacing job' j := (hother b hba).symm.trans hb
      have hwriter : (w.stands b).writes = some (job', j) := by rw [hb]; rfl
      exact (hkeep _ j (hothers b job' j hba hwriter) (h.writer b job' j hwriter)).trans
        (h.filled b job' j hb)
  · intro b c job₁ job₂ j k hbc hb hc
    change (Function.update w.stands a stand b).writes = _ at hb
    change (Function.update w.stands a stand c).writes = _ at hc
    by_cases hba : b = a
    · subst hba
      rw [hother c hbc.symm] at hc
      rw [hself, hwrites] at hb
      obtain ⟨rfl, rfl⟩ := Prod.mk.inj (Option.some.inj hb)
      exact (hothers c job₂ k hbc.symm hc).symm
    · rw [hother b hba] at hb
      by_cases hca : c = a
      · subst hca
        rw [hself, hwrites] at hc
        obtain ⟨rfl, rfl⟩ := Prod.mk.inj (Option.some.inj hc)
        exact hothers b job₁ j hba hb
      · rw [hother c hca] at hc
        exact h.alone b c job₁ job₂ j k hbc hb hc
  · intro b
    change (Function.update w.stands a stand b).good mask p w.settled
    by_cases hba : b = a
    · subst hba
      rw [hself]
      rcases hstand with rfl | ⟨rfl, -⟩ <;> exact hgood
    · rw [hother b hba]
      exact h.good b
  · intro j hj
    have hj : w.names .pending = some j := hpending ▸ hj
    obtain ⟨record, hrecord, hp⟩ := h.pendingWhole j hj
    exact ⟨record, (hkeep _ j job.tmp_ne_pending.symm hj).trans hrecord, hp⟩
  · intro hs j hj
    have hj : w.names .deadLetter = some j := hdead ▸ hj
    obtain ⟨record, hrecord, hp⟩ := h.deadWhole hs j hj
    exact ⟨record, (hkeep _ j job.tmp_ne_deadLetter.symm hj).trans hrecord, hp⟩
  · intro b fallback hb
    by_cases hba : b = a
    · subst hba
      have hb : stand = .unlinking fallback := hself.symm.trans hb
      rcases hstand with rfl | ⟨rfl, -⟩ <;> cases hb
    · exact (h.moved b fallback ((hother b hba).symm.trans hb)).imp_right
        fun hd => (congrArg Option.isSome hdead).trans hd
  · exact fun hs => (h.kept hs).imp (fun hp => (congrArg Option.isSome hpending).trans hp)
      fun hd => (congrArg Option.isSome hdead).trans hd
  · exact fun hc => hpending.trans (h.gone hc)

theorem Kept.replace (h : Kept mask p w) {job : WriteJob V} {i : Nat}
    (hstand : w.stands a = .replacing job i)
    (hfresh : ∀ record, job = .attempt record → w.consumed = false) :
    Kept mask p ((w.rename job.tmp job.target i).put a job.landed) := by
  have hwriter : (w.stands a).writes = some (job, i) := by rw [hstand]; rfl
  have htmp := h.writer a job i hwriter
  have hfilled := h.filled a job i hstand
  have hgood : job.good mask p w.settled := by
    have := h.good a
    rwa [hstand] at this
  set names := Function.update (Function.update w.names job.tmp none) job.target (some i)
    with hdef
  have htarget : names job.target = some i := Function.update_self ..
  have hnone : names job.tmp = none := by
    rw [hdef, Function.update_of_ne (job.tmp_ne_target job), Function.update_self]
  have hnames : ∀ n, n ≠ job.tmp → n ≠ job.target → names n = w.names n := by
    intro n hn hn'
    rw [hdef, Function.update_of_ne hn', Function.update_of_ne hn]
  -- every name but the target is as it was, or gone
  have hback : ∀ n j, n ≠ job.target → names n = some j → w.names n = some j ∧ j ≠ i := by
    intro n j hn hj
    by_cases hnt : n = job.tmp
    · rw [hnt, hnone] at hj
      cases hj
    · rw [hnames n hnt hn] at hj
      refine ⟨hj, ?_⟩
      rintro rfl
      exact hnt (h.inj n job.tmp j hj htmp)
  have hlanded : job.landed.writes = none := by cases job <;> rfl
  have hself : Function.update w.stands a job.landed a = job.landed := Function.update_self ..
  have hother : ∀ b, b ≠ a → Function.update w.stands a job.landed b = w.stands b :=
    fun b hb => Function.update_of_ne hb ..
  have hwrites : ∀ b job' j, (Function.update w.stands a job.landed b).writes = some (job', j) →
      b ≠ a ∧ (w.stands b).writes = some (job', j) := by
    intro b job' j hb
    by_cases hba : b = a
    · rw [hba, hself, hlanded] at hb
      cases hb
    · exact ⟨hba, hother b hba ▸ hb⟩
  refine ⟨?_, ?_, ?_, ?_, ?_, ?_, ?_, ?_, ?_, ?_, ?_⟩
  · intro m n j hm hn
    change names m = some j at hm
    change names n = some j at hn
    by_cases hmt : m = job.target
    · by_cases hnt : n = job.target
      · rw [hmt, hnt]
      · rw [hmt, htarget] at hm
        exact absurd (Option.some.inj hm).symm (hback n j hnt hn).2
    · by_cases hnt : n = job.target
      · rw [hnt, htarget] at hn
        exact absurd (Option.some.inj hn).symm (hback m j hmt hm).2
      · exact h.inj m n j (hback m j hmt hm).1 (hback n j hnt hn).1
  · intro n j hn
    change names n = some j at hn
    by_cases hnt : n = job.target
    · rw [hnt, htarget] at hn
      exact Option.some.inj hn ▸ h.bound _ i htmp
    · exact h.bound n j (hback n j hnt hn).1
  · intro b job' j hb
    obtain ⟨hba, hb⟩ := hwrites b job' j hb
    have hne := h.alone b a job' job j i hba hb hwriter
    exact (hnames _ hne (job'.tmp_ne_target job)).trans (h.writer b job' j hb)
  · intro b job' j hb
    have hb' : (Function.update w.stands a job.landed b).writes = some (job', j) :=
      congrArg Stand.writes hb
    obtain ⟨hba, -⟩ := hwrites b job' j hb'
    exact h.filled b job' j ((hother b hba).symm.trans hb)
  · intro b c job₁ job₂ j k hbc hb hc
    exact h.alone b c job₁ job₂ j k hbc (hwrites b job₁ j hb).2 (hwrites c job₂ k hc).2
  · intro b
    change (Function.update w.stands a job.landed b).good mask p w.settled
    by_cases hba : b = a
    · rw [hba, hself]
      cases job with
      | attempt record => trivial
      | deadLetter record fallback => exact hgood.2
    · rw [hother b hba]
      exact h.good b
  · intro j hj
    change names .pending = some j at hj
    cases job with
    | attempt record =>
        obtain rfl := Option.some.inj (htarget.symm.trans hj)
        exact ⟨record, hfilled, hgood⟩
    | deadLetter record fallback => exact h.pendingWhole j (hback _ j (by simp [WriteJob.target]) hj).1
  · intro hs j hj
    change names .deadLetter = some j at hj
    cases job with
    | attempt record => exact h.deadWhole hs j (hback _ j (by simp [WriteJob.target]) hj).1
    | deadLetter record fallback =>
        obtain rfl := Option.some.inj (htarget.symm.trans hj)
        refine ⟨record, hfilled, hgood.1.resolve_left ?_⟩
        rw [show w.settled = false from hs]
        decide
  · intro b fallback hb
    have hdead : (w.names .deadLetter).isSome → (names .deadLetter).isSome := by
      cases job with
      | attempt record => exact fun hd => by rwa [hnames _ (by simp [WriteJob.tmp]) (by simp [WriteJob.target])]
      | deadLetter record fallback => exact fun _ => congrArg Option.isSome htarget
    by_cases hba : b = a
    · subst hba
      have hb : job.landed = .unlinking fallback := hself.symm.trans hb
      cases job with
      | attempt record => cases hb
      | deadLetter record fallback' =>
          right
          exact congrArg Option.isSome htarget
    · exact (h.moved b fallback ((hother b hba).symm.trans hb)).imp_right hdead
  · intro hs
    change (names .pending).isSome ∨ (names .deadLetter).isSome
    cases job with
    | attempt record => exact .inl (congrArg Option.isSome htarget)
    | deadLetter record fallback => exact .inr (congrArg Option.isSome htarget)
  · intro hc
    change names .pending = none
    cases job with
    | attempt record =>
        rw [show w.consumed = true from hc] at hfresh
        exact absurd (hfresh record rfl) (by decide)
    | deadLetter record fallback =>
        rw [hnames _ (by simp [WriteJob.tmp]) (by simp [WriteJob.target])]
        exact h.gone hc

omit [DecidableEq A] in
theorem Files.content_eq_some {n : FileName} {record : JournalRecord V}
    (h : w.content n = some record) : ∃ i, w.names n = some i ∧ w.disk i = some record := by
  unfold Files.content at h
  exact Option.bind_eq_some_iff.mp h

omit [DecidableEq A] in
theorem Kept.read (h : Kept mask p w) {record : JournalRecord V}
    (hread : w.content .pending = some record) : record.payload = some p := by
  obtain ⟨i, hi, hdisk⟩ := Files.content_eq_some hread
  obtain ⟨record', hrecord, hpayload⟩ := h.pendingWhole i hi
  obtain rfl := Option.some.inj (hdisk.symm.trans hrecord)
  exact hpayload

theorem Kept.goto_failed (h : Kept mask p w) {job : WriteJob V}
    (hgood : job.good mask p w.settled) : Kept mask p (w.put a job.failed) :=
  h.goto hgood.failed job.failed_writes fun _ hf => absurd hf (job.failed_ne_unlinking _)

theorem disposed_good {maxAttempts : Int} {exists_ settled : Bool} {record : JournalRecord V}
    {out : ReplayEnd} (h : record.payload = some p) :
    (disposed maxAttempts exists_ record out).good mask p settled ∧
      (disposed maxAttempts exists_ record out).writes = none ∧
      ∀ fallback, disposed maxAttempts exists_ record out ≠ .unlinking fallback := by
  unfold disposed
  dsimp only
  split
  · exact ⟨trivial, rfl, by simp⟩
  · refine ⟨fun record' hr => ?_, rfl, by simp⟩
    obtain rfl := Option.some.inj hr
    exact h
  · split
    · exact ⟨trivial, rfl, by simp⟩
    · exact ⟨h, rfl, by simp⟩

theorem Kept.finish (h : Kept mask p w) {maxAttempts : Int} {outcome : Outcome} {w' : Files A V}
    (hact : act mask maxAttempts w a (.finish outcome) = some w') : Kept mask p w' := by
  have hgood := h.good a
  unfold act at hact
  dsimp only at hact
  split at hact <;> cases hact
  · exact h.put (fun _ => rfl) ⟨rfl, by simp⟩ rfl (by simp)
  · exact h.goto (by simp [Stand.good]) rfl (by simp)
  · exact h.goto trivial rfl (by simp)
  · next record out hstand =>
      rw [hstand] at hgood
      refine h.put (fun _ => rfl) ⟨rfl, fun record' out' he => ?_⟩ rfl (by simp)
      obtain ⟨rfl, -⟩ := Prod.mk.inj (Option.some.inj he)
      exact hgood
  · next hstand =>
      rw [hstand] at hgood
      exact h.goto hgood rfl (by simp)
  · next hstand =>
      rw [hstand] at hgood
      exact h.goto hgood rfl (by simp)

theorem Kept.consume (h : Kept mask p w) {maxAttempts : Int} {ok : Bool} {w' : Files A V}
    (hact : act mask maxAttempts w a (.consume ok) = some w') : Kept mask p w' := by
  have hgood := h.good a
  unfold act at hact
  dsimp only at hact
  split at hact <;> cases hact
  next after hstand =>
    rw [hstand] at hgood
    have hfiles : Kept mask p
        (if ok then { (w.unlink .pending) with consumed := true } else w) := by
      split
      · exact h.unlink (.inl hgood.1)
      · exact h
    cases after with
    | none => exact hfiles.goto trivial rfl (by simp)
    | some out => exact hfiles.goto (hgood.2 out.1 out.2 rfl) rfl (by simp)

theorem Kept.reread (h : Kept mask p w) {maxAttempts : Int} {readable : Bool} {w' : Files A V}
    (horderly : w.settled = true ∨ readable = true ∧ (w.content .pending).isSome)
    (hact : act mask maxAttempts w a (.reread readable) = some w') : Kept mask p w' := by
  have hgood := h.good a
  unfold act at hact
  dsimp only at hact
  split at hact <;> cases hact
  next note fallback hstand =>
    rw [hstand] at hgood
    refine h.goto ⟨horderly.imp_right ?_, hgood⟩ rfl (by simp)
    rintro ⟨rfl, hsome⟩
    obtain ⟨record, hrecord⟩ := Option.isSome_iff_exists.mp hsome
    simp only [if_true, hrecord, deadLetterRecord, h.read hrecord, Option.map_some]

theorem Kept.open (h : Kept mask p w) {maxAttempts : Int} {ok : Bool} {w' : Files A V}
    (horderly : Orderly w a (.open ok))
    (hact : act mask maxAttempts w a (.open ok) = some w') : Kept mask p w' := by
  have hgood := h.good a
  unfold act at hact
  dsimp only at hact
  split at hact
  · next job hstand =>
      rw [hstand] at hgood
      cases ok with
      | false =>
          cases hact
          exact h.goto_failed hgood
      | true =>
          have hothers := horderly job hstand
          unfold Files.truncate at hact
          cases htmp : w.names job.tmp with
          | some i =>
              rw [htmp] at hact
              cases hact
              exact h.write hgood (.inl rfl) hothers (fun _ _ => rfl) htmp
                (fun n hn => h.inj n job.tmp i hn htmp)
                (fun j hj => Function.update_of_ne hj ..) le_rfl (h.bound _ i htmp)
          | none =>
              rw [htmp] at hact
              cases hact
              refine h.write hgood (.inl rfl) hothers (fun n hn => Function.update_of_ne hn ..)
                (Function.update_self ..) (fun n hn => ?_)
                (fun j hj => Function.update_of_ne hj ..) (Nat.le_succ _) (Nat.lt_succ_self _)
              exact absurd (h.bound n _ hn) (lt_irrefl _)
  · cases hact

theorem Kept.fill (h : Kept mask p w) {maxAttempts : Int} {ok : Bool} {w' : Files A V}
    (hact : act mask maxAttempts w a (.fill ok) = some w') : Kept mask p w' := by
  have hgood := h.good a
  unfold act at hact
  dsimp only at hact
  split at hact
  · next job i hstand =>
      rw [hstand] at hgood
      cases ok with
      | false =>
          cases hact
          exact h.goto_failed hgood
      | true =>
          have hwriter : (w.stands a).writes = some (job, i) := by rw [hstand]; rfl
          have htmp := h.writer a job i hwriter
          cases hact
          exact h.write hgood (.inr ⟨rfl, Function.update_self ..⟩)
            (fun b job' j hb hb' => h.alone b a job' job j i hb hb' hwriter) (fun _ _ => rfl) htmp
            (fun n hn => h.inj n job.tmp i hn htmp) (fun j hj => Function.update_of_ne hj ..) le_rfl
            (h.bound _ i htmp)
  · cases hact

theorem Kept.act (h : Kept mask p w) {maxAttempts : Int} {deed : Deed} {w' : Files A V}
    (horderly : Orderly w a deed) (hact : act mask maxAttempts w a deed = some w') :
    Kept mask p w' := by
  have hgood := h.good a
  cases deed with
  | finish outcome => exact h.finish hact
  | consume ok => exact h.consume hact
  | reread readable => exact h.reread horderly hact
  | «open» ok => exact h.open horderly hact
  | fill ok => exact h.fill hact
  | snap readable =>
      unfold Journal.act at hact
      dsimp only at hact
      split at hact
      · next record _ hrecord =>
          split at hact <;> cases hact
          · exact h.goto (h.read hrecord) rfl (by simp)
          · exact h
      · cases hact
  | enter granted =>
      unfold Journal.act at hact
      dsimp only at hact
      split at hact
      · next record hstand =>
          rw [hstand] at hgood
          split at hact <;> cases hact
          · exact h.goto hgood rfl (by simp)
          · exact h.goto trivial rfl (by simp)
      · cases hact
  | test =>
      unfold Journal.act at hact
      dsimp only at hact
      split at hact <;> cases hact
      next record out hstand =>
        rw [hstand] at hgood
        obtain ⟨hnext, hwrites, hne⟩ :
            (disposed maxAttempts (w.names .pending).isSome record out).good mask p w.settled ∧ _ :=
          disposed_good hgood
        exact h.goto hnext hwrites fun fallback hf => absurd hf (hne fallback)
  | replace ok =>
      unfold Journal.act at hact
      dsimp only at hact
      split at hact
      · next job i hstand =>
          rw [hstand] at hgood
          split at hact <;> cases hact
          · next inode hname =>
              have htmp := h.writer a job i (by rw [hstand]; rfl)
              obtain rfl := Option.some.inj (htmp.symm.trans hname)
              refine h.replace hstand fun record hjob => ?_
              subst hjob
              exact horderly record i hstand
          · exact h.goto_failed hgood
      · cases hact
  | unlink ok =>
      unfold Journal.act at hact
      dsimp only at hact
      split at hact
      · next fallback hstand =>
          rw [hstand] at hgood
          split at hact <;> cases hact
          · have hfiles : Kept mask p { (w.unlink .pending) with consumed := w.consumed } :=
              h.unlink (h.moved a fallback hstand)
            exact hfiles.goto trivial rfl (by simp)
          · cases fallback with
            | none => exact h.goto trivial rfl (by simp)
            | some record => exact h.goto (hgood record rfl) rfl (by simp)
      · cases hact
  | crash =>
      obtain rfl := Option.some.inj hact
      exact h.goto trivial rfl (by simp)

/-! ## Whole runs -/

/-- The files when `journal_pending` has returned a path to the call `caller`. -/
def Files.journaled (payload : V) (caller : A) : Files A V where
  names := Function.update (fun _ => none) .pending (some 0)
  disk := Function.update (fun _ => none) 0 (some ⟨some payload, 0, none⟩)
  next := 1
  stands := Function.update (fun _ => .idle) caller .pipeline

theorem Kept.journaled (caller : A) : Kept mask p (Files.journaled p caller) := by
  have hstands : ∀ b, (Files.journaled p caller).stands b = .idle ∨
      (Files.journaled p caller).stands b = .pipeline := by
    intro b
    simp only [Files.journaled, Function.update_apply]
    split
    · exact .inr rfl
    · exact .inl rfl
  have hwrites : ∀ b, ((Files.journaled p caller).stands b).writes = none := by
    intro b
    rcases hstands b with h | h <;> rw [h] <;> rfl
  have hnames : ∀ n i, (Files.journaled p caller).names n = some i → n = .pending ∧ i = 0 := by
    intro n i hn
    change Function.update (fun _ => none) FileName.pending (some 0) n = some i at hn
    rw [Function.update_apply] at hn
    split at hn
    · next h => exact ⟨h, (Option.some.inj hn).symm⟩
    · cases hn
  refine ⟨?_, ?_, ?_, ?_, ?_, ?_, ?_, ?_, ?_, ?_, ?_⟩
  · exact fun m n i hm hn => (hnames m i hm).1.trans (hnames n i hn).1.symm
  · intro n i hn
    rw [(hnames n i hn).2]
    exact Nat.zero_lt_one
  · intro b job i hb
    rw [hwrites b] at hb
    cases hb
  · intro b job i hb
    rcases hstands b with h | h <;> rw [h] at hb <;> cases hb
  · intro b c job job' i j _ hb
    rw [hwrites b] at hb
    cases hb
  · intro b
    rcases hstands b with h | h <;> rw [h] <;> trivial
  · intro i hi
    obtain ⟨-, rfl⟩ := hnames _ i hi
    exact ⟨⟨some p, 0, none⟩, by simp [Files.journaled], rfl⟩
  · intro _ i hi
    exact absurd (hnames _ i hi).1 (by decide)
  · intro b fallback hb
    rcases hstands b with h | h <;> rw [h] at hb <;> cases hb
  · exact fun _ => .inl rfl
  · intro hc
    cases hc

/-- The whole payload is in `pending/`, or masked in `dead_letter/`. -/
def Files.holds (mask : V → V) (payload : V) (w : Files A V) : Prop :=
  (∃ record, w.content .pending = some record ∧ record.payload = some payload) ∨
    ∃ record, w.content .deadLetter = some record ∧ record.payload = some (mask payload)

omit [DecidableEq A] in
theorem Kept.holds (h : Kept mask p w) : w.settled = true ∨ w.holds mask p := by
  cases hs : w.settled with
  | true => exact .inl rfl
  | false =>
      right
      rcases h.kept hs with hsome | hsome
      · obtain ⟨i, hi⟩ := Option.isSome_iff_exists.mp hsome
        obtain ⟨record, hrecord, hpayload⟩ := h.pendingWhole i hi
        refine .inl ⟨record, ?_, hpayload⟩
        rw [Files.content, hi]
        exact hrecord
      · obtain ⟨i, hi⟩ := Option.isSome_iff_exists.mp hsome
        obtain ⟨record, hrecord, hpayload⟩ := h.deadWhole hs i hi
        refine .inr ⟨record, ?_, hpayload⟩
        rw [Files.content, hi]
        exact hrecord

theorem consumed_of_act {maxAttempts : Int} {deed : Deed} {w' : Files A V}
    (hact : Journal.act mask maxAttempts w a deed = some w') (h : w.consumed = true) :
    w'.consumed = true := by
  unfold Journal.act at hact
  cases deed <;> dsimp only at hact
  case «open» ok =>
    split at hact
    · split at hact
      · unfold Files.truncate at hact
        split at hact <;> cases hact <;> exact h
      · cases hact
        exact h
    · cases hact
  case consume ok =>
    split at hact <;> cases hact
    split
    · rfl
    · exact h
  all_goals repeat' split at hact
  all_goals cases hact
  all_goals exact h

/-- The steps that meet the condition. -/
def OrderlyStep (mask : V → V) (maxAttempts : Int) (w : Files A V) (x : A × Deed)
    (w' : Files A V) : Prop :=
  Journal.act mask maxAttempts w x.1 x.2 = some w' ∧ Orderly w x.1 x.2

/-- In a run in which the attempt count is not written over a consumed record, every dead-letter
copy of an undecided learning is made of a record that was read, and no two parties have one temp
file open: the learning is held whole, or a terminal outcome was confirmed; and once the record is
consumed its pending file is gone for good. -/
theorem learning_kept {caller : A} {maxAttempts : Int} {xs : List (A × Deed)}
    (hrun : Run (OrderlyStep mask maxAttempts) (Files.journaled p caller) xs w) :
    (w.settled = true ∨ w.holds mask p) ∧
    (w.consumed = true → ∀ ys w', Run (OrderlyStep mask maxAttempts) w ys w' →
      w'.names .pending = none) := by
  have hkept : Kept mask p w :=
    hrun.invariant (Kept.journaled caller) fun _ _ _ h hs => h.act hs.2 hs.1
  refine ⟨hkept.holds, fun hconsumed ys w' hrun' => ?_⟩
  have hboth : Kept mask p w' ∧ w'.consumed = true :=
    hrun'.invariant (I := fun v => Kept mask p v ∧ v.consumed = true) ⟨hkept, hconsumed⟩
      fun _ _ _ h hs => ⟨h.1.act hs.2 hs.1, consumed_of_act hs.1 h.2⟩
  exact hboth.1.gone hboth.2

end

/-! ## A record brought back, and one lost -/

/-- Two parties, the call and one drain, and a mask that hides everything. -/
abbrev SampleFiles := Files Bool String

def sampleMask (_ : String) : String := "<REDACTED>"

def sampleStart : SampleFiles := Files.journaled "payload" false

/-- The drain's replay fails and it finds the record there; the call stores the learning and
consumes the record; the drain books its attempt. -/
def sampleRevival : List (Bool × Deed) :=
  [(true, .snap true), (true, .enter true),
    (true, .finish (.retained (.returned "error"))), (true, .test),
    (false, .finish (.handled (.returned "recorded"))), (false, .consume true),
    (true, .open true), (true, .fill true), (true, .replace true)]

/-- The drain's replay is refused, and it cannot read the record it moves aside. -/
def sampleLoss : List (Bool × Deed) :=
  [(true, .snap true), (true, .enter true), (true, .finish (.rejected "pii")), (true, .test),
    (true, .reread false), (true, .open true), (true, .fill true), (true, .replace true),
    (true, .unlink true)]

def sampleFold (xs : List (Bool × Deed)) : Option SampleFiles :=
  xs.foldlM (fun w x => act sampleMask 0 w x.1 x.2) sampleStart

theorem sample_run_of {xs : List (Bool × Deed)} (h : (sampleFold xs).isSome) :
    ∃ w, sampleFold xs = some w ∧
      Run (fun w x w' => act sampleMask 0 w x.1 x.2 = some w') sampleStart xs w := by
  obtain ⟨w, hw⟩ := Option.isSome_iff_exists.mp h
  exact ⟨w, hw, Run.of_foldlM hw⟩

/-- The call stores the learning and consumes its record, and a drain comes too late. -/
theorem learning_kept_sample : ∃ w : SampleFiles, w.consumed = true ∧ w.names .pending = none := by
  have hfinish : OrderlyStep sampleMask 0 sampleStart (false, .finish (.handled (.returned "")))
      { (sampleStart.put false (.confirmed none)) with settled := true } := ⟨rfl, trivial⟩
  have hconsume : OrderlyStep sampleMask 0
      { (sampleStart.put false (.confirmed none)) with settled := true } (false, .consume true)
      (({ ({ (sampleStart.put false (.confirmed none)) with settled := true } :
        SampleFiles).unlink .pending with consumed := true } : SampleFiles).put false .idle) :=
    ⟨rfl, trivial⟩
  exact ⟨_, rfl, (learning_kept ((Run.single hfinish).snoc hconsume)).2 rfl _ _ .nil⟩

theorem learning_revived_and_lost :
    ¬ (∀ (xs : List (Bool × Deed)) (w : SampleFiles),
        Run (fun w x w' => act sampleMask 0 w x.1 x.2 = some w') sampleStart xs w →
        w.consumed = true → w.names .pending = none) ∧
    ¬ ∀ (xs : List (Bool × Deed)) (w : SampleFiles),
        Run (fun w x w' => act sampleMask 0 w x.1 x.2 = some w') sampleStart xs w →
        w.settled = true ∨ w.holds sampleMask "payload" := by
  constructor
  · intro h
    obtain ⟨w, hw, hrun⟩ := @sample_run_of sampleRevival (by decide +kernel)
    have hfacts : (sampleFold sampleRevival).map (fun w => (w.consumed, w.names .pending)) =
        some (true, some 1) := by decide +kernel
    rw [hw, Option.map_some] at hfacts
    obtain ⟨hconsumed, hpending⟩ := Prod.mk.inj (Option.some.inj hfacts)
    rw [h _ w hrun hconsumed] at hpending
    cases hpending
  · intro h
    obtain ⟨w, hw, hrun⟩ := @sample_run_of sampleLoss (by decide +kernel)
    have hfacts : (sampleFold sampleLoss).map (fun w =>
        (w.settled, w.content .pending, (w.content .deadLetter).map fun r => r.payload)) =
        some (false, none, some none) := by decide +kernel
    rw [hw, Option.map_some] at hfacts
    obtain ⟨hsettled, hrest⟩ := Prod.mk.inj (Option.some.inj hfacts)
    obtain ⟨hpending, hdead⟩ := Prod.mk.inj hrest
    rcases h _ w hrun with hs | ⟨record, hr, -⟩ | ⟨record, hr, hpayload⟩
    · rw [hsettled] at hs
      cases hs
    · rw [hpending] at hr
      cases hr
    · rw [hr, Option.map_some, hpayload] at hdead
      cases hdead

end TrwMcp.Journal
